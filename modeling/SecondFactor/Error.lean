import SecondFactor.Identity
import SecondFactor.Signature.SecretKey

/-!
# Errors

The reasons for which a request fails. An error says what went wrong; its code and its wording
are functions of that.
-/

namespace SecondFactor

/-- A failure of the host's key-value store. -/
inductive StoreError where
  /-- The bytes under a key cannot be interpreted. -/
  | corrupted (key : String)
  /-- A writer died while it held the store. -/
  | lockPoisoned
  /-- Any other failure, in the words of the store. -/
  | backend (reason : String)
deriving DecidableEq

/-- The wording of a store error. -/
def StoreError.message : StoreError → String
  | corrupted key => "Corrupted value under key " ++ key
  | lockPoisoned => "Store lock poisoned"
  | backend reason => "Backend error: " ++ reason

/-- The variables of the environment that hold settings. -/
inductive Setting where
  /-- The text before an envelope in a memo. -/
  | memoPrefix
  /-- The height of genesis. -/
  | genesisHeight
  /-- The first height with vote extensions. -/
  | extensionsEnableHeight
  /-- The bound on the entries of an aggregate. -/
  | maxAggregateEntries
  /-- The policy for accounts that register again. -/
  | rebindPolicy
  /-- The secret key of a validator. -/
  | validatorKey
deriving DecidableEq

/-- The name of a variable. -/
def Setting.name : Setting → String
  | memoPrefix => "SK_MEMO_PREFIX"
  | genesisHeight => "SK_GENESIS_HEIGHT"
  | extensionsEnableHeight => "SK_VOTE_EXTENSIONS_ENABLE_HEIGHT"
  | maxAggregateEntries => "SK_MAX_AGGREGATE_ENTRIES"
  | rebindPolicy => "SK_ACCOUNT_REBIND_POLICY"
  | validatorKey => "SK_VALIDATOR_SECONDARY_KEY"

/-- Why a configuration cannot be used. -/
inductive ConfigError where
  /-- The memo prefix has no characters. -/
  | emptyMemoPrefix
  /-- The memo prefix holds a character other than the printable ASCII ones. -/
  | unprintableMemoPrefix (memoPrefix : String)
  /-- No aggregate could hold an entry. -/
  | zeroAggregateBound
  /-- No policy has this name. -/
  | unknownRebindPolicy (name : String)
  /-- A variable does not hold a number. -/
  | invalidValue (setting : Setting) (value : String)
  /-- There is no secret key to sign with. -/
  | missingValidatorKey
  /-- The secret key cannot be read. -/
  | invalidValidatorKey
deriving DecidableEq

/-- The wording of a configuration error. -/
def ConfigError.message : ConfigError → String
  | emptyMemoPrefix => "Memo prefix must not be empty"
  | unprintableMemoPrefix memoPrefix =>
    "Memo prefix must be printable ASCII: " ++ Text.quoted memoPrefix
  | zeroAggregateBound => "max_aggregate_entries must be greater than zero"
  | unknownRebindPolicy name => "Unknown rebind policy: " ++ name
  | invalidValue setting value => "Invalid value for " ++ setting.name ++ ": " ++ value
  | missingValidatorKey => "Validator secondary key is not configured"
  | invalidValidatorKey => "Invalid validator secondary key"

/-- Why bytes are no envelope, no vote extension and no aggregate. -/
inductive Malformation where
  /-- There are no bytes. -/
  | empty
  /-- The bytes are not a JSON document of the record expected. -/
  | notRecord
  /-- The signature of a vote extension has no bytes. -/
  | noSignature
deriving DecidableEq

/-- The wording of a malformation. -/
def Malformation.message : Malformation → String
  | empty => "empty envelope"
  | notRecord => "not a record of the expected form"
  | noSignature => "vote extension has no signature"

/-- Why a request that could be read is not valid. -/
inductive RequestFault where
  /-- The envelope has an empty public key. -/
  | missingPublicKey
  /-- The envelope has an empty signature. -/
  | missingSignature
  /-- An encoded envelope is not text. -/
  | notText
  /-- A secret key cannot be read. -/
  | secretKey (fault : SecretKey.Fault)
  /-- A proposal holds an aggregate although there is nothing to aggregate. -/
  | unexpectedAggregate
  /-- A proposal holds no transaction at all, and so no aggregate. -/
  | missingAggregate
  /-- The aggregate of a proposal has no entries. -/
  | emptyAggregate
  /-- The aggregate has more entries than the configuration allows. -/
  | tooManyEntries (entries limit : Nat)
  /-- The aggregate has more entries than there are valid extensions. -/
  | moreEntriesThanExtensions (entries extensions : Nat)
  /-- The validator of an entry stands in an earlier one or has no valid extension. -/
  | noExtensionFor (validator : Address)
  /-- The signature of an entry is not the one of the validator's extension. -/
  | differsFromExtension (validator : Address)
deriving DecidableEq

/-- The wording of a request fault. -/
def RequestFault.message : RequestFault → String
  | missingPublicKey => "missing public key"
  | missingSignature => "missing signature"
  | notText => "envelope is not text"
  | secretKey fault => fault.message
  | unexpectedAggregate => "aggregate present but the last commit carried no valid extensions"
  | missingAggregate => "proposal is missing the vote-extension aggregate"
  | emptyAggregate => "aggregate has no entries"
  | tooManyEntries entries limit =>
    "aggregate has " ++ toString entries ++ " entries, limit is " ++ toString limit
  | moreEntriesThanExtensions entries extensions =>
    "aggregate has " ++ toString entries ++ " entries for " ++ toString extensions ++
      " valid extensions"
  | noExtensionFor validator =>
    "validator " ++ Hex.text validator.bytes ++
      " is repeated or has no valid extension in the last commit"
  | differsFromExtension validator =>
    "entry for validator " ++ Hex.text validator.bytes ++ " differs from its vote extension"

/-- Why a transaction has no signer to authenticate. -/
inductive TransactionFault where
  /-- No signer is declared. -/
  | noSigners
  /-- There is no signature. -/
  | noSignatures
  /-- The first signature is not the first signer's. -/
  | foreignSignature (actual expected : Address)
  /-- The first signature comes without a public key. -/
  | noPublicKey
deriving DecidableEq

/-- The wording of a transaction fault. -/
def TransactionFault.message : TransactionFault → String
  | noSigners => "transaction declares no signers"
  | noSignatures => "transaction has no signatures"
  | foreignSignature actual expected =>
    "first signature is from " ++ Hex.text actual.bytes ++ ", expected signer " ++
      Hex.text expected.bytes
  | noPublicKey => "signature has no public key"

/-- The kinds of errors, each with a code of its own. -/
inductive ErrorKind where
  /-- Bytes are not the record that they should be. -/
  | malformedEnvelope
  /-- A request is not valid. -/
  | invalidRequest
  /-- A transaction does not have the expected shape. -/
  | transactionShape
  /-- An identity has no key. -/
  | unknownBinding
  /-- A declared key is not the one that is bound. -/
  | keyMismatch
  /-- A signature does not verify. -/
  | verificationFailed
  /-- No key can be recovered from a signature. -/
  | recoveryFailed
  /-- An identity has another key, which may not be replaced. -/
  | alreadyBound
  /-- The store failed. -/
  | store
  /-- The configuration cannot be used. -/
  | config
deriving DecidableEq

namespace ErrorKind

/-- The code that results of failed transactions carry. -/
def code : ErrorKind → String
  | malformedEnvelope => "MALFORMED_ENVELOPE"
  | invalidRequest => "INVALID_REQUEST"
  | transactionShape => "TX_DECODE_ERROR"
  | unknownBinding => "UNKNOWN_BINDING"
  | keyMismatch => "INVALID_SECONDARY_PUBLIC_KEY"
  | verificationFailed => "SIGNATURE_VERIFICATION_FAILED"
  | recoveryFailed => "RECOVERY_ERROR"
  | alreadyBound => "BINDING_ALREADY_EXISTS"
  | store => "STORE_ERROR"
  | config => "CONFIG_ERROR"

/-- The wording of an error of a kind with a detail: a reason or an identity. -/
def phrase (detail : String) : ErrorKind → String
  | malformedEnvelope => "Malformed secondary signature envelope: " ++ detail
  | invalidRequest => "Invalid request: " ++ detail
  | transactionShape => "Transaction decode error: " ++ detail
  | unknownBinding => "No secondary key bound for " ++ detail
  | keyMismatch => "Declared secondary key does not match the bound key for " ++ detail
  | verificationFailed => "Secondary signature verification failed"
  | recoveryFailed => "Failed to recover public key: " ++ detail
  | alreadyBound => "A different secondary key is already bound for " ++ detail
  | store => "Store error: " ++ detail
  | config => "Configuration error: " ++ detail

end ErrorKind

/-- Why an operation failed. -/
inductive Error where
  /-- Bytes are not the record that they should be. -/
  | malformedEnvelope (reason : Malformation)
  /-- A request is not valid. -/
  | invalidRequest (reason : RequestFault)
  /-- A transaction does not have the expected shape. -/
  | transactionShape (reason : TransactionFault)
  /-- An identity has no key. -/
  | unknownBinding (identity : Identity)
  /-- A declared key is not the one that is bound. -/
  | keyMismatch (identity : Identity)
  /-- A signature does not verify. -/
  | verificationFailed
  /-- No key can be recovered from a signature. -/
  | recoveryFailed (reason : Signature.RecoveryFault)
  /-- An identity has another key, which may not be replaced. -/
  | alreadyBound (identity : Identity)
  /-- The store failed. -/
  | store (reason : StoreError)
  /-- The configuration cannot be used. -/
  | config (reason : ConfigError)
  /-- The host reported an error of a kind in its own words. -/
  | reported (kind : ErrorKind) (detail : String)
deriving DecidableEq

namespace Error

/-- The kind of an error. -/
def kind : Error → ErrorKind
  | malformedEnvelope _ => .malformedEnvelope
  | invalidRequest _ => .invalidRequest
  | transactionShape _ => .transactionShape
  | unknownBinding _ => .unknownBinding
  | keyMismatch _ => .keyMismatch
  | verificationFailed => .verificationFailed
  | recoveryFailed _ => .recoveryFailed
  | alreadyBound _ => .alreadyBound
  | store _ => .store
  | config _ => .config
  | reported kind _ => kind

/-- The reason of an error or the identity that it concerns. -/
def detail : Error → String
  | malformedEnvelope reason => reason.message
  | invalidRequest reason => reason.message
  | transactionShape reason => reason.message
  | unknownBinding identity => identity.text
  | keyMismatch identity => identity.text
  | verificationFailed => ""
  | recoveryFailed reason => reason.message
  | alreadyBound identity => identity.text
  | store reason => reason.message
  | config reason => reason.message
  | reported _ detail => detail

/-- The code that results of failed transactions carry. -/
def code (e : Error) : String :=
  e.kind.code

/-- The wording of an error. -/
def message (e : Error) : String :=
  e.kind.phrase e.detail

end Error

end SecondFactor
