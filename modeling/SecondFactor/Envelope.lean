import SecondFactor.Error
import SecondFactor.Hash.Keccak
import SecondFactor.Json.Record

/-!
# Envelopes

An envelope carries a secondary public key and a signature made with it. Accounts send it when
they register a key, and then in the memo of each transaction, behind a prefix. A memo without
the prefix carries no envelope, which is no error.
-/

namespace SecondFactor

/-- A secondary public key with a signature. -/
structure Envelope where
  /-- The public key. -/
  publicKey : Bytes
  /-- The signature. -/
  signature : Bytes
deriving DecidableEq

instance : Wire Envelope where
  toJson envelope := .ofFields
    [("public_key", .ofHex envelope.publicKey), ("signature", .ofHex envelope.signature)]
  ofJson? j := do
    let [some publicKey, some signature] ← Json.fields? ["public_key", "signature"] {} j | none
    return ⟨← publicKey.hex?, ← signature.hex?⟩

/-- The hash that an account signs: that of its own public key. -/
def accountHash (publicKey : Bytes) : Hash :=
  Hash.Keccak.digest publicKey

namespace Envelope

/-- The envelope that an account makes with its key, or nothing if signing fails. -/
def sign? (key : SecretKey) : Option Envelope :=
  match key.sign? (accountHash key.publicKey) with
  | some signature => some ⟨key.publicKey, Signature.stripRecoveryByte signature.bytes⟩
  | none => none

/-- Checks that both fields have bytes. -/
def validate (envelope : Envelope) : Except Error Unit :=
  if envelope.publicKey = [] then .error (.invalidRequest .missingPublicKey)
  else if envelope.signature = [] then .error (.invalidRequest .missingSignature)
  else .ok ()

/-- The document of a valid envelope. -/
def encode (envelope : Envelope) : Except Error Bytes :=
  match envelope.validate with
  | .ok () => .ok (Wire.write envelope)
  | .error e => .error e

/-- Reads an envelope; a recovery byte after the signature is dropped. -/
def decode (b : Bytes) : Except Error Envelope :=
  if b = [] then .error (.malformedEnvelope .empty)
  else
    match (Wire.read? b : Option Envelope) with
    | some envelope =>
      .ok { envelope with signature := Signature.stripRecoveryByte envelope.signature }
    | none => .error (.malformedEnvelope .notRecord)

/-- The memo with an envelope: the prefix and directly behind it the document. -/
def toMemo (memoPrefix : String) (envelope : Envelope) : Except Error String :=
  match envelope.encode with
  | .error e => .error e
  | .ok b =>
    match Text.ofUtf8? b with
    | some body => .ok (memoPrefix ++ body)
    | none => .error (.invalidRequest .notText)

/-- What stands behind the memo prefix, if it is there. -/
def bodyOf? (memoPrefix : String) (b : Bytes) : Option Bytes :=
  (Text.utf8 memoPrefix).isPrefixOf? b

/-- The envelope of a memo, or nothing if the memo does not start with the prefix. -/
def ofMemo (memoPrefix memo : String) : Except Error (Option Envelope) :=
  match bodyOf? memoPrefix (Text.utf8 memo) with
  | none => .ok none
  | some body =>
    match decode body with
    | .ok envelope => .ok (some envelope)
    | .error e => .error e

/-- Whether the signature was made by the holder of the key over the hash of the key. -/
def provesPossession (envelope : Envelope) : Bool :=
  Signature.verify envelope.publicKey (accountHash envelope.publicKey) envelope.signature

end Envelope

end SecondFactor
