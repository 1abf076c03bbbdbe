import SecondFactor.Curve.Field
import SecondFactor.Hash.Hmac

/-!
# Deterministic Nonces

The secret multiplier of a signature, drawn from the key and the hash to sign by the generator of
RFC 6979, so that signing needs no randomness and the same hash is always signed the same way. The
generator takes the hash as it is, also where its number is not below the group order.
-/

namespace SecondFactor.Signature.Nonce

open Curve Hash

/-- The state of the generator. -/
structure Generator where
  /-- The key of the keyed hash. -/
  key : Bytes
  /-- The last value drawn. -/
  value : Bytes

namespace Generator

/-- Draws the next value under the present key. -/
def next (g : Generator) : Generator :=
  { g with value := (Hmac.digest g.key g.value).bytes }

/-- Mixes a marker byte and more data into the key, then draws a value. -/
def mix (g : Generator) (marker : UInt8) (data : Bytes) : Generator :=
  next { g with key := (Hmac.digest g.key (g.value ++ marker :: data)).bytes }

/-- The generator for a secret key and the hash to sign, each of 32 bytes. -/
def seed (secret hash : Bytes) : Generator :=
  let data := secret ++ hash
  let blank : Generator := ⟨List.replicate 32 0, List.replicate 32 1⟩
  (blank.mix 0 data).mix 1 data

/-- The first value drawn that is a scalar other than zero, within `attempts` draws. -/
def draw? : (attempts : Nat) → Generator → Option Scalar
  | 0, _ => none
  | attempts + 1, g =>
    let g := g.next
    let n := Bytes.toNat g.value
    if h : 0 < n ∧ n < order then some ⟨n, h.2⟩
    else draw? attempts (g.mix 0 [])

end Generator

/-- How often a nonce is drawn before signing gives up. A draw fails with a probability of less
than one in `2 ^ 127`. -/
def attempts : Nat := 64

/-- The nonce for signing a hash with a secret scalar. -/
def derive? (secret : Scalar) (hash : FixedBytes 32) : Option Scalar :=
  (Generator.seed (Bytes.ofNat 32 secret.val) hash.bytes).draw? attempts

end SecondFactor.Signature.Nonce
