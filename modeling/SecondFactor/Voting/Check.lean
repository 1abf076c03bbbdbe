import SecondFactor.Bindings

/-!
# Checking a Validator's Signature

A validator that has a key bound is held to it. One that has none is taken at its first word: the
key is recovered from the signature itself, which then has to come with its recovery byte.
-/

namespace SecondFactor.Voting

/-- How a signature of a validator was found to be right. -/
inductive Check where
  /-- It verifies with the key that is bound. -/
  | bound
  /-- Nothing is bound, and it verifies with the key recovered from it. -/
  | recovered (publicKey : Bytes)
deriving DecidableEq

/-- Checks a signature over a hash with a key. -/
def verifyWith (publicKey : Bytes) (hash : Hash) (signature : Bytes) (check : Check) :
    Except Error Check :=
  if Signature.verify publicKey hash (Signature.stripRecoveryByte signature) then .ok check
  else .error .verificationFailed

/-- Checks a validator's signature over the hash of a block. -/
def checkSignature (store : HostStore) (validator : Address) (hash : Hash) (signature : Bytes) :
    Except Error Check :=
  match Bindings.get store (.validator validator) with
  | .error e => .error e
  | .ok (some key) => verifyWith key hash signature .bound
  | .ok none =>
    match Signature.recover hash signature with
    | .ok key => verifyWith key hash signature (.recovered key)
    | .error e => .error (.recoveryFailed e)

end SecondFactor.Voting
