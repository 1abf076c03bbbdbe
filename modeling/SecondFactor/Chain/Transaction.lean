import SecondFactor.Error
import SecondFactor.Json.Record

/-!
# Blocks and Transactions

What the library sees of the chain that it serves: the block in which something is executed, and
transactions as far as their memo and their signatures go.
-/

namespace SecondFactor

/-- The block in which a transaction is executed. -/
structure BlockContext where
  /-- The name of the chain. -/
  chainId : String := ""
  /-- The height of the block. -/
  height : UInt64 := 0
  /-- The hash of the block's header. -/
  headerHash : Hash := .zero 32
deriving DecidableEq

instance : Wire BlockContext where
  toJson ctx := .ofFields
    [("chain_id", Wire.toJson ctx.chainId), ("height", Wire.toJson ctx.height),
      ("header_hash", Wire.toJson ctx.headerHash)]
  ofJson? j := do
    let [some chainId, some height, some headerHash] ←
      Json.fields? ["chain_id", "height", "header_hash"] { ignoresUnknown := true } j | none
    return ⟨← Wire.ofJson? chainId, ← Wire.ofJson? height, ← Wire.ofJson? headerHash⟩

/-- A primary signature of a transaction with its signer. -/
structure SignerInfo where
  /-- The address of the signer. -/
  address : Address
  /-- The primary public key, if it is declared. -/
  publicKey : Option Bytes
  /-- The primary signature. -/
  signature : Bytes
deriving DecidableEq

namespace SignerInfo

/-- The JSON form of a primary public key. -/
def keyToJson : Option Bytes → Json
  | some key => .ofHex key
  | none => .null

/-- The primary public key of a field that may be left out or empty. -/
def keyOfJson? : Option Json → Option (Option Bytes)
  | none => some none
  | some .null => some none
  | some j => j.hex?.map some

end SignerInfo

instance : Wire SignerInfo where
  toJson signer := .ofFields
    [("address", Wire.toJson signer.address), ("public_key", SignerInfo.keyToJson signer.publicKey),
      ("signature", .ofHex signer.signature)]
  ofJson? j := do
    let [some address, publicKey, some signature] ←
      Json.fields? ["address", "public_key", "signature"] { ignoresUnknown := true } j | none
    return ⟨← Wire.ofJson? address, ← SignerInfo.keyOfJson? publicKey, ← signature.hex?⟩

/-- A transaction. -/
structure Transaction where
  /-- The free text that comes with it. -/
  memo : String := ""
  /-- The addresses that have to sign, in order. -/
  signers : List Address := []
  /-- The signatures, in order. -/
  signatures : List SignerInfo := []
deriving DecidableEq

instance : Wire Transaction where
  toJson tx := .ofFields
    [("memo", Wire.toJson tx.memo), ("signers", Wire.toJson tx.signers),
      ("signatures", Wire.toJson tx.signatures)]
  ofJson? j := do
    let [some memo, some signers, some signatures] ←
      Json.fields? ["memo", "signers", "signatures"] { ignoresUnknown := true } j | none
    return ⟨← Wire.ofJson? memo, ← Wire.ofJson? signers, ← Wire.ofJson? signatures⟩

namespace Transaction

/-- The transaction with one signer. -/
def singleSigner (memo : String) (signer : SignerInfo) : Transaction :=
  ⟨memo, [signer.address], [signer]⟩

/-- The first declared signer, to whom the first signature has to belong and come with a public
key. -/
def primarySigner (tx : Transaction) : Except TransactionFault Address :=
  match tx.signers with
  | [] => .error .noSigners
  | declared :: _ =>
    match tx.signatures with
    | [] => .error .noSignatures
    | first :: _ =>
      if first.address ≠ declared then .error (.foreignSignature first.address declared)
      else if first.publicKey.getD [] = [] then .error .noPublicKey
      else .ok declared

end Transaction

end SecondFactor
