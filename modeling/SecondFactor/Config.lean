import SecondFactor.Config.Policy
import SecondFactor.Error

/-!
# Configuration

The parameters that all nodes of a chain have to agree on. A configuration may be read with
fields left out, and is checked before a node uses it.
-/

namespace SecondFactor

/-- The parameters of a chain. -/
structure Config where
  /-- The text that stands before an envelope in a memo. -/
  memoPrefix : String := "SECONDARY"
  /-- The height of genesis, where transactions pass unchecked. -/
  genesisHeight : UInt64 := 0
  /-- The first height with vote extensions; with zero there are none. -/
  extensionsEnableHeight : UInt64 := 1
  /-- The bound on the entries of an aggregate. -/
  maxAggregateEntries : UInt64 := 10000
  /-- What happens when an account registers again. -/
  rebindPolicy : RebindPolicy := .firstWriteWins
deriving DecidableEq

namespace Config

/-- The fields of a configuration document, in order. -/
def fieldNames : List String :=
  ["memo_prefix", "genesis_height", "vote_extensions_enable_height", "max_aggregate_entries",
    "account_rebind_policy"]

/-- The value of a field that may be left out. -/
def fieldOr {α : Type} [Wire α] (default : α) : Option Json → Option α
  | none => some default
  | some j => Wire.ofJson? j

instance : Wire Config where
  toJson config := .ofFields
    [("memo_prefix", Wire.toJson config.memoPrefix),
      ("genesis_height", Wire.toJson config.genesisHeight),
      ("vote_extensions_enable_height", Wire.toJson config.extensionsEnableHeight),
      ("max_aggregate_entries", Wire.toJson config.maxAggregateEntries),
      ("account_rebind_policy", Wire.toJson config.rebindPolicy)]
  ofJson? j := do
    let [memoPrefix, genesisHeight, enableHeight, maxEntries, policy] ←
      Json.fields? fieldNames { ignoresUnknown := true, mayBeShorter := true } j | none
    let preset : Config := {}
    return ⟨← fieldOr preset.memoPrefix memoPrefix, ← fieldOr preset.genesisHeight genesisHeight,
      ← fieldOr preset.extensionsEnableHeight enableHeight,
      ← fieldOr preset.maxAggregateEntries maxEntries, ← fieldOr preset.rebindPolicy policy⟩

/-- A printable ASCII character, the space included. -/
def isPrintableAscii (c : Char) : Bool :=
  ' ' ≤ c && c ≤ '~'

/-- Checks that a node can work with a configuration. -/
def validate (config : Config) : Except ConfigError Unit :=
  if config.memoPrefix = "" then .error .emptyMemoPrefix
  else if !config.memoPrefix.toList.all isPrintableAscii then
    .error (.unprintableMemoPrefix config.memoPrefix)
  else if config.maxAggregateEntries = 0 then .error .zeroAggregateBound
  else .ok ()

/-- Whether votes at a height carry extensions. -/
def extensionsEnabled (config : Config) (height : UInt64) : Bool :=
  0 < config.extensionsEnableHeight && config.extensionsEnableHeight ≤ height

end Config

end SecondFactor
