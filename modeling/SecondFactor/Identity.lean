import SecondFactor.Bytes.Hex

/-!
# Identities

Accounts and validators may each have a secondary key bound to them. Their addresses come from
different domains, so the store keeps them under keys that start with different bytes.
-/

namespace SecondFactor

/-- Whom a secondary key is bound to. -/
inductive Identity where
  /-- The owner of an account. -/
  | account (address : Address)
  /-- A validator. -/
  | validator (address : Address)
deriving DecidableEq

namespace Identity

/-- The address, of either kind. -/
def address : Identity → Address
  | account a => a
  | validator a => a

/-- The first byte of the store keys of a kind. -/
def namespaceByte : Identity → UInt8
  | account _ => 0x00
  | validator _ => 0x01

/-- The key under which the store keeps the binding of an identity. -/
def storeKey (identity : Identity) : Bytes :=
  identity.namespaceByte :: identity.address.bytes

/-- The written form: the kind and the address in hexadecimal. -/
def text : Identity → String
  | account a => "account:" ++ Hex.text a.bytes
  | validator a => "validator:" ++ Hex.text a.bytes

/-- Accounts come before validators; within a kind the addresses decide. -/
instance : LT Identity where
  lt
    | account a, account b => a.bytes < b.bytes
    | account _, validator _ => True
    | validator _, account _ => False
    | validator a, validator b => a.bytes < b.bytes

instance (x y : Identity) : Decidable (x < y) :=
  match x, y with
  | account a, account b => inferInstanceAs (Decidable (a.bytes < b.bytes))
  | account _, validator _ => isTrue trivial
  | validator _, account _ => isFalse id
  | validator a, validator b => inferInstanceAs (Decidable (a.bytes < b.bytes))

/-- Identities in ascending order. -/
def sort (identities : List Identity) : List Identity :=
  identities.mergeSort fun x y => !decide (y < x)

end Identity

/-- The statement that an identity's secondary signatures are made with a key. -/
structure Binding where
  /-- Whose signatures. -/
  identity : Identity
  /-- The key they verify with. -/
  publicKey : Bytes
deriving DecidableEq

/-- What an attempt to bind a key did. -/
inductive BindOutcome where
  /-- Nothing was bound; now the key is. -/
  | created
  /-- The same key was bound already, and nothing was written. -/
  | unchanged
  /-- A different key was bound and has been replaced. -/
  | replaced
deriving DecidableEq

end SecondFactor
