import SecondFactor.Curve.PublicKey
import SecondFactor.Signature.Scalar

/-!
# Checking Signatures and Recovering Keys

A signature over a 32-byte hash is the pair of numbers `r ‖ s`, 64 bytes; with a recovery byte
after it, 65 bytes, the signer's key can be computed from it. Of the two signatures with the same
`r` only the one whose `s` is below half the group order counts, in checking and in recovery
alike.
-/

namespace SecondFactor.Signature

open Curve

/-- The scalar that 32 bytes denote, modulo the group order. -/
def scalarOf (b : FixedBytes 32) : Scalar :=
  Fin.ofNat order b.toNat

/-- The two numbers of a signature without recovery byte. -/
def split? (signature : Bytes) : Option (ScalarBytes × ScalarBytes) :=
  if signature.length = 64 then
    match FixedBytes.ofBytes? 32 (signature.take 32), FixedBytes.ofBytes? 32 (signature.drop 32) with
    | some r, some s => some (r, s)
    | _, _ => none
  else none

/-- The signature without the recovery byte that its length tells of. -/
def stripRecoveryByte (signature : Bytes) : Bytes :=
  if signature.length = 65 then signature.take 64 else signature

/-- The signature equation: the point `(z / s) • G + (r / s) • key` has `r` as its first
coordinate, modulo the group order. -/
def satisfies (key : PublicKey) (z r s : Scalar) : Bool :=
  let w := inverse s
  let p := ((Point.generator.scale (z * w)).add (key.point.scale (r * w))).affine?
  match p with
  | some (x, _) => x.val % order == r.val
  | none => false

/-- Whether a 64-byte signature over a hash was made with a key, given in any of its encodings.
Malformed keys and signatures verify nothing. -/
def verify (publicKey : Bytes) (hash : Hash) (signature : Bytes) : Bool :=
  match split? signature with
  | none => false
  | some (r, s) =>
    isValid r && isValid s && isLow s &&
      match PublicKey.decode? publicKey with
      | some key => satisfies key (scalarOf hash) (scalarOf r) (scalarOf s)
      | none => false

/-- Why no key can be recovered from a signature. -/
inductive RecoveryFault where
  /-- The signature does not have 65 bytes. -/
  | length (actual : Nat)
  /-- The recovery byte is none of 0, 1, 27, 28. -/
  | recoveryByte (value : UInt8)
  /-- One of the two numbers is zero or not below the group order. -/
  | scalarRange
  /-- The second number is not below half the group order. -/
  | highS
  /-- No point of the curve has the first number as its coordinate, or the key that follows from
  it is no key or does not verify the signature. -/
  | noKey
deriving DecidableEq

/-- The wording of a fault. -/
def RecoveryFault.message : RecoveryFault → String
  | .length actual => "expected 65 bytes, got " ++ toString actual
  | .recoveryByte value => "invalid recovery id " ++ toString value.toNat
  | .scalarRange => "scalar out of range"
  | .highS => "malleable signature (high S)"
  | .noKey => "signature error"

/-- Whether the point that a signature was made from has an odd second coordinate, from the
recovery byte in either numbering. -/
def parityOf? (recoveryByte : UInt8) : Option Bool :=
  if recoveryByte = 0 ∨ recoveryByte = 27 then some false
  else if recoveryByte = 1 ∨ recoveryByte = 28 then some true
  else none

/-- The key for which a point with first coordinate `r` satisfies the signature equation. -/
def candidateKey? (z r s : Scalar) (r' : Coordinate) (odd : Bool) : Option PublicKey :=
  match PublicKey.ofParity? r' odd with
  | none => none
  | some nonce =>
    let w := inverse r
    PublicKey.ofPoint? <|
      (Point.generator.scale (-(w * z))).add (nonce.point.scale (w * s))

/-- The uncompressed key of the signer of a hash, from a signature with recovery byte. -/
def recover (hash : Hash) (signature : Bytes) : Except RecoveryFault Bytes :=
  -- The form of the signature is judged before the numbers, and the numbers before the curve.
  if signature.length ≠ 65 then .error (.length signature.length)
  else
    let recoveryByte := signature.getD 64 0
    match parityOf? recoveryByte with
    | none => .error (.recoveryByte recoveryByte)
    | some odd =>
      match split? (signature.take 64) with
      | none => .error .noKey
      | some (r, s) =>
        if !(isValid r && isValid s) then .error .scalarRange
        else if !isLow s then .error .highS
        else
          let z := scalarOf hash
          match Coordinate.ofBytes? r.bytes with
          | none => .error .noKey
          | some r' =>
            match candidateKey? z (scalarOf r) (scalarOf s) r' odd with
            | none => .error .noKey
            | some key =>
              if satisfies key z (scalarOf r) (scalarOf s) then .ok key.encode
              else .error .noKey

end SecondFactor.Signature
