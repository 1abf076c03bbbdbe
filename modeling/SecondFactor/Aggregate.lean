import SecondFactor.Error
import SecondFactor.Json.Record

/-!
# Vote Extensions and Their Aggregate

The extension of a vote is a signature over the hash of the block that is voted for. The proposer
of the next block collects the extensions of the last height in one aggregate, which stands in
the block in front of the transactions.
-/

namespace SecondFactor

/-- The signature that a validator attaches to its vote, with the recovery byte or without. -/
structure VoteExtension where
  /-- The signature over the block's hash. -/
  signature : Bytes
deriving DecidableEq

instance : Wire VoteExtension where
  toJson extension := .ofFields [("signature", .ofHex extension.signature)]
  ofJson? j := do
    let [some signature] ← Json.fields? ["signature"] {} j | none
    return ⟨← signature.hex?⟩

namespace VoteExtension

/-- The document of an extension. -/
def encode (extension : VoteExtension) : Bytes :=
  Wire.write extension

/-- Reads an extension, which has to have a signature. -/
def decode (b : Bytes) : Except Error VoteExtension :=
  match (Wire.read? b : Option VoteExtension) with
  | some extension =>
    if extension.signature = [] then .error (.malformedEnvelope .noSignature) else .ok extension
  | none => .error (.malformedEnvelope .notRecord)

end VoteExtension

/-- What a validator contributes to an aggregate. -/
structure AggregateEntry where
  /-- Who voted. -/
  validator : Address
  /-- The signature of the vote extension. -/
  signature : Bytes
deriving DecidableEq

instance : Wire AggregateEntry where
  toJson entry := .ofFields
    [("validator", Wire.toJson entry.validator), ("signature", .ofHex entry.signature)]
  ofJson? j := do
    let [some validator, some signature] ← Json.fields? ["validator", "signature"] {} j | none
    return ⟨← Wire.ofJson? validator, ← signature.hex?⟩

/-- The vote extensions of a height, collected by the proposer of the next. -/
structure Aggregate where
  /-- One entry for each validator. -/
  entries : List AggregateEntry
deriving DecidableEq

instance : Wire Aggregate where
  toJson aggregate := .ofFields [("entries", Wire.toJson aggregate.entries)]
  ofJson? j := do
    let [some entries] ← Json.fields? ["entries"] {} j | none
    return ⟨← Wire.ofJson? entries⟩

namespace Aggregate

/-- The document of an aggregate. -/
def encode (aggregate : Aggregate) : Bytes :=
  Wire.write aggregate

/-- Reads an aggregate. -/
def decode (b : Bytes) : Except Error Aggregate :=
  match (Wire.read? b : Option Aggregate) with
  | some aggregate => .ok aggregate
  | none => .error (.malformedEnvelope .notRecord)

/-- The number of entries. -/
def size (aggregate : Aggregate) : Nat :=
  aggregate.entries.length

/-- Whether there are no entries. -/
def isEmpty (aggregate : Aggregate) : Bool :=
  aggregate.entries.isEmpty

end Aggregate

end SecondFactor
