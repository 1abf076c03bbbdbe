import SecondFactor.Hash.Sha256

/-!
# HMAC with SHA-256

The keyed hash: the key, filled up to a block, is added to two constant blocks, and the message
is hashed inside a second hash.
-/

namespace SecondFactor.Hash.Hmac

/-- The key as one block of 64 bytes; a longer key is hashed first. -/
def keyBlock (key : Bytes) : Bytes :=
  let key := if 64 < key.length then (Sha256.digest key).bytes else key
  key ++ List.replicate (64 - key.length) 0

/-- The code of a message under a key. -/
def digest (key message : Bytes) : Hash :=
  let block := keyBlock key
  let inner := Sha256.digest (block.map (· ^^^ 0x36) ++ message)
  Sha256.digest (block.map (· ^^^ 0x5C) ++ inner.bytes)

end SecondFactor.Hash.Hmac
