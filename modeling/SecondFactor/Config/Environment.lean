import SecondFactor.Config
import SecondFactor.Text.Blank
import SecondFactor.Text.Decimal

/-!
# Settings from the Environment

A configuration and a validator's secret key as the variables of the environment give them.
Numbers may have blanks around them, the memo prefix and the policy are taken as they stand.
-/

namespace SecondFactor

/-- The values of the variables that are set. -/
abbrev Environment := Setting → Option String

namespace Environment

/-- The number that a variable holds, or a default if it is not set. -/
def number (env : Environment) (setting : Setting) (default : UInt64) :
    Except ConfigError UInt64 :=
  match env setting with
  | none => .ok default
  | some value =>
    match Text.readDecimal? UInt64.size (Text.trimChars value.toList) with
    | some n => .ok (UInt64.ofNat n)
    | none => .error (.invalidValue setting value)

/-- The policy that its variable names, or a default if it is not set. -/
def policy (env : Environment) (default : RebindPolicy) : Except ConfigError RebindPolicy :=
  match env .rebindPolicy with
  | none => .ok default
  | some value =>
    match RebindPolicy.ofName? value with
    | some policy => .ok policy
    | none => .error (.unknownRebindPolicy value)

/-- The configuration: the default one, with the fields changed whose variables are set. -/
def config (env : Environment) : Except ConfigError Config := do
  let preset : Config := {}
  -- Of several variables that hold no value the first one in this order is reported.
  let genesisHeight ← env.number .genesisHeight preset.genesisHeight
  let enableHeight ← env.number .extensionsEnableHeight preset.extensionsEnableHeight
  let maxEntries ← env.number .maxAggregateEntries preset.maxAggregateEntries
  let policy ← env.policy preset.rebindPolicy
  let config : Config :=
    ⟨(env .memoPrefix).getD preset.memoPrefix, genesisHeight, enableHeight, maxEntries, policy⟩
  config.validate
  return config

/-- The secret key of a validator. -/
def validatorKey (env : Environment) : Except ConfigError SecretKey :=
  match env .validatorKey with
  | none => .error .missingValidatorKey
  | some value =>
    match SecretKey.ofHex (Text.trim value) with
    | .ok key => .ok key
    | .error _ => .error .invalidValidatorKey

end Environment

end SecondFactor
