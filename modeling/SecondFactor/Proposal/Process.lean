import SecondFactor.Bindings
import SecondFactor.Chain.Proposal
import SecondFactor.Config
import SecondFactor.Proposal.Extensions

/-!
# Processing a Proposal

Every validator checks that a proposed block starts with an aggregate of valid extensions of the
last commit if there are any, and then binds the keys of the validators that had none. The check
of the block (`check`) is a function of its transactions and of the valid extensions; all writing
(`learn`) comes after it.
-/

namespace SecondFactor.Proposal

/-- What the entries of an aggregate teach: the bindings of the valid extensions that they
repeat. A valid extension may be repeated once. -/
def lessons : List AggregateEntry → List ValidExtension → Except RequestFault (List Binding)
  | [], _ => .ok []
  | entry :: rest, valid =>
    match valid.find? fun extension => extension.validator = entry.validator with
    | none => .error (.noExtensionFor entry.validator)
    | some extension =>
      if extension.signature ≠ entry.signature then
        .error (.differsFromExtension entry.validator)
      else
        -- The extension is used up: a second entry of the same validator finds none.
        match lessons rest (valid.filter fun other => other.validator ≠ entry.validator) with
        | .ok bindings => .ok (extension.learned ++ bindings)
        | .error e => .error e

/-- What the aggregate of a block that is in order tells. -/
structure Lesson where
  /-- The number of its entries. -/
  entries : Nat
  /-- The bindings of the validators that had none. -/
  bindings : List Binding
deriving DecidableEq

/-- Checks an aggregate against the valid extensions. -/
def checkAggregate (config : Config) (aggregate : Aggregate) (valid : List ValidExtension) :
    Except RequestFault Lesson :=
  if aggregate.isEmpty then .error .emptyAggregate
  else if config.maxAggregateEntries.toNat < aggregate.size then
    .error (.tooManyEntries aggregate.size config.maxAggregateEntries.toNat)
  else if valid.length < aggregate.size then
    .error (.moreEntriesThanExtensions aggregate.size valid.length)
  else
    match lessons aggregate.entries valid with
    | .ok bindings => .ok ⟨aggregate.size, bindings⟩
    | .error e => .error e

/-- Whether a block starts with what can be read as an aggregate. -/
def startsWithAggregate (txs : List Bytes) : Bool :=
  match txs with
  | [] => false
  | first :: _ => (Aggregate.decode first).isOk

/-- Checks the transactions of a block against the valid extensions of the last commit. Without
valid extensions no aggregate may be there, and there is no lesson. -/
def check (config : Config) (txs : List Bytes) (valid : List ValidExtension) :
    Except Error (Option Lesson) :=
  if valid = [] then
    if startsWithAggregate txs then .error (.invalidRequest .unexpectedAggregate) else .ok none
  else
    match txs with
    | [] => .error (.invalidRequest .missingAggregate)
    | first :: _ =>
      match Aggregate.decode first with
      | .error e => .error e
      | .ok aggregate =>
        match checkAggregate config aggregate valid with
        | .ok lesson => .ok (some lesson)
        | .error e => .error (.invalidRequest e)

/-- Writes bindings one after the other, up to the first that cannot be written. -/
def learn (height : UInt64) : List Binding → Update Unit
  | [] => return ()
  | binding :: rest => do
    tryCatch (Bindings.set binding) fun e => do
      record (.bindingNotPersisted height e)
      throw e
    learn height rest

/-- Checks a block and binds the keys that it teaches. -/
def checkAndLearn (config : Config) (request : ProcessRequest) : Update Unit := do
  let valid ← validExtensions (← getThe HostStore) request.lastCommit
  match ← MonadExcept.ofExcept (check config request.txs valid) with
  | none => return ()
  | some lesson =>
    learn request.height lesson.bindings
    record (.aggregateAccepted request.height lesson.entries lesson.bindings.length)

/-- Decides on a proposed block. -/
def process (config : Config) (request : ProcessRequest) : StateT HostStore Logged Verdict := do
  match ← (checkAndLearn config request).run with
  | .ok () => return .accept
  | .error e =>
    record (.proposalRejected request.height e)
    return .reject

end SecondFactor.Proposal
