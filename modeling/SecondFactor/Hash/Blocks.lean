import SecondFactor.Bytes

/-!
# Blocks of a Message

Hash functions take a padded message block by block.
-/

namespace SecondFactor.Hash

/-- The consecutive blocks of `size` bytes of a message, leaving out an incomplete last one. -/
def blocks (size : Nat) (message : Bytes) : List Bytes :=
  (List.range (message.length / size)).map fun i => (message.drop (i * size)).take size

end SecondFactor.Hash
