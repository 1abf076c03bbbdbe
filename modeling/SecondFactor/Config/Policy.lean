import SecondFactor.Json.Record

/-!
# Rebinding Policies

What happens when an account registers a key although another one is bound to it.
-/

namespace SecondFactor

/-- How a registration treats an account that has a key. -/
inductive RebindPolicy where
  /-- The first key stays; only the same key may be registered again. -/
  | firstWriteWins
  /-- Every registration replaces the key. -/
  | lastWriteWins
deriving DecidableEq

namespace RebindPolicy

/-- The name of a policy in settings and documents. -/
def name : RebindPolicy → String
  | firstWriteWins => "first_write_wins"
  | lastWriteWins => "last_write_wins"

/-- The name of a policy in events. -/
def label : RebindPolicy → String
  | firstWriteWins => "FirstWriteWins"
  | lastWriteWins => "LastWriteWins"

/-- The policies with their names. -/
def named : List (String × RebindPolicy) :=
  [firstWriteWins, lastWriteWins].map fun policy => (policy.name, policy)

/-- The policy of a name. -/
def ofName? (name : String) : Option RebindPolicy :=
  named.lookup name

instance : Wire RebindPolicy where
  toJson policy := .ofText policy.name
  ofJson? := Json.variant? named

end RebindPolicy

end SecondFactor
