import SecondFactor.Bindings
import SecondFactor.Chain.Transaction
import SecondFactor.Config
import SecondFactor.Envelope

/-!
# Authentication of Transactions

The second factor of a transaction is an envelope in its memo. A transaction whose memo does not
start with the memo prefix has none and passes; one that has it passes only if the envelope was
made with the key that is bound to the account of the primary signer. Nothing is written.
-/

namespace SecondFactor

/-- How a transaction passes. -/
inductive Admission where
  /-- It was not checked, as it is simulated or belongs to genesis. -/
  | bypassed
  /-- It has no memo. -/
  | noMemo
  /-- Its memo carries no envelope. -/
  | noPrefix
  /-- Its envelope was made with the key of its primary signer. -/
  | verified
deriving DecidableEq

namespace Authentication

open Attempt (orRecord)

/-- Checks that the primary signer of a transaction has the key of an envelope bound, and that
the envelope was made with it. -/
def checkSigner (store : HostStore) (height : UInt64) (identity : Identity)
    (envelope : Envelope) : Attempt Unit := do
  -- Operators see the same event whether there is no binding or it cannot be read.
  let key ← orRecord (fun _ => .bindingMissing height identity) (Bindings.require store identity)
  if key ≠ envelope.publicKey then
    record (.keyDiffers height identity)
    throw (.keyMismatch identity)
  else if !Signature.verify key (accountHash key) envelope.signature then
    record (.signatureInvalid height identity)
    throw .verificationFailed
  else
    record (.signatureVerified height identity)

/-- The account of the primary signer of a transaction. -/
def signer (tx : Transaction) : Except Error Identity :=
  match tx.primarySigner with
  | .ok address => .ok (.account address)
  | .error e => .error (.transactionShape e)

/-- Checks an envelope that stands in the memo of a transaction. -/
def checkEnvelope (store : HostStore) (height : UInt64) (tx : Transaction)
    (envelope : Envelope) : Attempt Unit := do
  orRecord (.envelopeIncomplete height) envelope.validate
  let identity ← orRecord (.signerUnresolved height) (signer tx)
  checkSigner store height identity envelope

/-- Decides whether a transaction passes in a block, and how. -/
def authenticate (config : Config) (store : HostStore) (ctx : BlockContext) (tx : Transaction)
    (simulate : Bool) : Attempt Admission :=
  if simulate ∨ ctx.height = config.genesisHeight then do
    record (.checkBypassed ctx.height simulate)
    return .bypassed
  else if tx.memo = "" then
    return .noMemo
  else do
    match ← orRecord (.envelopeMalformed ctx.height) (Envelope.ofMemo config.memoPrefix tx.memo)
    with
    | none =>
      record (.memoUnsigned ctx.height)
      return .noPrefix
    | some envelope =>
      checkEnvelope store ctx.height tx envelope
      return .verified

end Authentication

end SecondFactor
