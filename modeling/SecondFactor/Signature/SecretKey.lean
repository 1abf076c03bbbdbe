import SecondFactor.Bytes.Hex
import SecondFactor.Signature.Ecdsa
import SecondFactor.Signature.Nonce
import SecondFactor.Text.Quoted
import SecondFactor.Text.Utf8

/-!
# Secret Keys

A secret key is a scalar other than zero. Accounts sign their own public key with it, validators
sign block hashes; a signature is `r ‖ s ‖ v` with a low `s` and a recovery byte of 0 or 1.
-/

namespace SecondFactor

open Curve Signature

/-- A secret key. -/
structure SecretKey where
  /-- The multiplier of the generator that gives the public point. -/
  scalar : Scalar
  /-- Zero is no key. -/
  scalar_ne_zero : scalar ≠ 0
deriving DecidableEq

namespace SecretKey

/-- Why something is no secret key. -/
inductive Fault where
  /-- The text is not hexadecimal. -/
  | notHex
  /-- The bytes are too few or too many, or their number is zero or not below the group order. -/
  | notScalar
deriving DecidableEq

/-- The wording of a fault. -/
def Fault.message : Fault → String
  | .notHex => "secret key is not hex"
  | .notScalar => "invalid secret key"

/-- Reads a key of 24 to 32 bytes, most significant first. -/
def ofBytes (b : Bytes) : Except Fault SecretKey :=
  if 24 ≤ b.length ∧ b.length ≤ 32 then
    let n := Bytes.toNat b
    if h : n < order then
      if h0 : (⟨n, h⟩ : Scalar) ≠ 0 then .ok ⟨⟨n, h⟩, h0⟩ else .error .notScalar
    else .error .notScalar
  else .error .notScalar

/-- A text without any markers `0x` at its start. -/
def dropMarkers : List UInt8 → List UInt8
  | 0x30 :: 0x78 :: rest => dropMarkers rest
  | digits => digits

/-- Reads a key in hexadecimal, after any markers `0x`. -/
def ofHex (text : String) : Except Fault SecretKey :=
  match Hex.decode? (dropMarkers (Text.utf8 text)) with
  | some b => ofBytes b
  | none => .error .notHex

/-- The point of the key. The second case never arises, since no multiple of the generator by a
scalar other than zero is at infinity. -/
def point (key : SecretKey) : Option PublicKey :=
  PublicKey.ofPoint? (Point.generator.scale key.scalar)

/-- The public key in its uncompressed form. -/
def publicKey (key : SecretKey) : Bytes :=
  match key.point with
  | some p => p.encode
  | none => []

/-- The two numbers of a signature and whether its point has an odd second coordinate, made with
a given nonce. The number `s` is the lower one of the two possible. -/
def signWith? (key : SecretKey) (nonce z : Scalar) : Option (Scalar × Scalar × Bool) :=
  match (Point.generator.scale nonce).affine? with
  | none => none
  | some (x, y) =>
    let r := Fin.ofNat order x.val
    let s := inverse nonce * (z + r * key.scalar)
    if r = 0 ∨ s = 0 then none
    else
      -- Negating `s` is signing with the negated point, which has the other parity.
      let odd := y.val % 2 == 1
      if order / 2 < s.val then some (r, -s, !odd) else some (r, s, odd)

/-- Signs a hash: `r ‖ s ‖ v` with `s` strictly below half the group order where that is
possible, and `v` telling the parity of the signature's point. -/
def sign? (key : SecretKey) (hash : Hash) : Option (FixedBytes 65) :=
  match Nonce.derive? key.scalar hash with
  | none => none
  | some nonce =>
    match key.signWith? nonce (scalarOf hash) with
    | none => none
    | some (r, s, odd) =>
      let (low, negated) := normalize (FixedBytes.ofNat 32 s.val)
      let v : UInt8 := if odd = negated then 0 else 1
      some ⟨Bytes.ofNat 32 r.val ++ low.bytes ++ [v], by simp [low.length_eq]⟩

/-- What may be shown of a key: its public half. -/
def redacted (key : SecretKey) : String :=
  "SecondarySigningKey \x7b public_key: " ++ Text.quoted (Hex.text key.publicKey) ++
    ", secret: " ++ Text.quoted "***" ++ " \x7d"

end SecretKey

end SecondFactor
