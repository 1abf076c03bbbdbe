import SecondFactor.Config.Policy
import SecondFactor.Update

/-!
# Bindings

The view of the host's store as a map between identities and secondary keys. Bindings belong to
the replicated state: they are written only while a registration or a proposal is executed, which
happens in the same order on every node.
-/

namespace SecondFactor.Bindings

/-- The key bound to an identity, if there is one. -/
def get (store : HostStore) (identity : Identity) : Except Error (Option Bytes) :=
  match store.get identity.storeKey with
  | .ok value => .ok value
  | .error e => .error (.store e)

/-- Whether a key is bound to an identity. -/
def has (store : HostStore) (identity : Identity) : Except Error Bool :=
  match store.has identity.storeKey with
  | .ok found => .ok found
  | .error e => .error (.store e)

/-- The key bound to an identity, which has to have one. -/
def require (store : HostStore) (identity : Identity) : Except Error Bytes :=
  match get store identity with
  | .ok (some key) => .ok key
  | .ok none => .error (.unknownBinding identity)
  | .error e => .error e

/-- Writes a binding, whatever was bound before. -/
def set (binding : Binding) : Update Unit := do
  record (.writingBinding binding.identity)
  Update.write binding.identity.storeKey binding.publicKey

/-- What binding a key does where `bound` is bound, if the policy admits it. -/
def outcome (binding : Binding) (bound : Option Bytes) (policy : RebindPolicy) :
    Except Error BindOutcome :=
  match bound with
  | none => .ok .created
  | some key =>
    if key = binding.publicKey then .ok .unchanged
    else match policy with
      | .firstWriteWins => .error (.alreadyBound binding.identity)
      | .lastWriteWins => .ok .replaced

/-- Binds a key to an identity as a policy admits it; a key that is bound already is not written
again. -/
def bind (binding : Binding) (policy : RebindPolicy) : Update BindOutcome := do
  let bound ← MonadExcept.ofExcept (get (← getThe HostStore) binding.identity)
  match ← MonadExcept.ofExcept (outcome binding bound policy) with
  | .unchanged => return .unchanged
  | outcome =>
    set binding
    return outcome

end SecondFactor.Bindings
