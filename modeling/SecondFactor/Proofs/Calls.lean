import SecondFactor.Node
import SecondFactor.Proofs.Proposal.Check
import SecondFactor.Proofs.Store.Calling

/-!
# The Calls of an Operation

Every operation of a node, written down call by call: each place in which it reaches for the store
is one call. On a store with faults by key this does what the node does (`Node.byKey_calls`), and no
operation reads a key twice or writes a key twice (`Node.once_calls`). The case to look at is a
block. Its votes may name a validator again, but a validator that has voted is not looked up again,
and the bindings that are written are of different validators. Faults by key are therefore as
general as failures of single calls, in one operation (`Node.exists_perform_eq`) and in a whole run
(`Node.exists_run_eq_runByCall`).
-/

namespace SecondFactor

open Attempt (orRecord)
open Calls (anyEnd)

variable {reads writes : List Bytes}

/-! ## Bindings -/

namespace Bindings

/-- Reading a binding is one call. -/
def getCalls (identity : Identity) : Calling (Option Bytes) :=
  Calling.read identity.storeKey

/-- The key bound to an identity, which has to have one. -/
def requireCalls (identity : Identity) : Calling Bytes := do
  match ← getCalls identity with
  | some key => return key
  | none => throw (.unknownBinding identity)

/-- Writing a binding is one call. -/
def setCalls (binding : Binding) : Calling Unit := do
  record (.writingBinding binding.identity)
  Calling.write binding.identity.storeKey binding.publicKey

/-- Binding a key reads the binding and then writes it, unless it has the key already. -/
def bindCalls (binding : Binding) (policy : RebindPolicy) : Calling BindOutcome := do
  let bound ← getCalls binding.identity
  match ← MonadExcept.ofExcept (outcome binding bound policy) with
  | .unchanged => return .unchanged
  | outcome =>
    setCalls binding
    return outcome

theorem reads_getCalls (identity : Identity) :
    (getCalls identity).Reads fun store => MonadExcept.ofExcept (get store identity) := by
  intro store
  rw [Attempt.run_ofExcept, map_pure, get]
  show pure ((store.get identity.storeKey).mapError Error.store, store) = _
  cases store.get identity.storeKey <;> rfl

theorem reads_requireCalls (identity : Identity) :
    (requireCalls identity).Reads fun store => MonadExcept.ofExcept (require store identity) := by
  intro store
  dsimp only
  rw [requireCalls, (reads_getCalls identity).byKey_bind, Attempt.run_ofExcept, map_pure]
  unfold require
  rcases get store identity with e | _ | key <;> rfl

theorem performs_setCalls (binding : Binding) : (setCalls binding).Performs (set binding) :=
  .bind (.lift (record _)) fun _ => .write _ _

theorem performs_bindCalls (binding : Binding) (policy : RebindPolicy) :
    (bindCalls binding policy).Performs (bind binding policy) := by
  intro store
  show _ = (MonadExcept.ofExcept (get store binding.identity) >>= _ : Update _).run.run store
  rw [bindCalls, (reads_getCalls binding.identity).byKey_bind]
  cases get store binding.identity with
  | error e => rfl
  | ok bound =>
    refine Calling.Performs.bind (.ofExcept _) (fun outcome => ?_) store
    cases outcome with
    | unchanged => exact .pure _
    | created | replaced => exact .bind (performs_setCalls binding) fun _ => .pure _

theorem once_getCalls {post : List Bytes → List Bytes → Except Error (Option Bytes) → Prop}
    {identity : Identity} (hfresh : identity.storeKey ∉ reads)
    (hpost : ∀ result, post (identity.storeKey :: reads) writes result) :
    (getCalls identity).run.Once post reads writes :=
  ⟨hfresh, fun _ => hpost _⟩

/-- What follows the read of a binding may not read it again. -/
theorem once_getCalls_bind {α : Type} {last : List Bytes → List Bytes → Except Error α → Prop}
    {identity : Identity} {f : Option Bytes → Calling α} (hfresh : identity.storeKey ∉ reads)
    (hok : ∀ bound, (f bound).run.Once last (identity.storeKey :: reads) writes)
    (herror : ∀ e, last (identity.storeKey :: reads) writes (.error e)) :
    (getCalls identity >>= f).run.Once last reads writes := by
  refine Calling.once_bind (fun reads' writes' _ =>
    reads' = identity.storeKey :: reads ∧ writes' = writes)
    (once_getCalls hfresh fun _ => ⟨rfl, rfl⟩) ?_ ?_
  · rintro _ _ bound ⟨rfl, rfl⟩
    exact hok bound
  · rintro _ _ e ⟨rfl, rfl⟩
    exact herror e

theorem once_requireCalls {post : List Bytes → List Bytes → Except Error Bytes → Prop}
    {identity : Identity} (hfresh : identity.storeKey ∉ reads)
    (hpost : ∀ result, post (identity.storeKey :: reads) writes result) :
    (requireCalls identity).run.Once post reads writes := by
  refine once_getCalls_bind hfresh (fun bound => ?_) fun e => hpost _
  cases bound <;> exact hpost _

theorem once_setCalls {post : List Bytes → List Bytes → Except Error Unit → Prop}
    {binding : Binding} (hfresh : binding.identity.storeKey ∉ writes)
    (hpost : ∀ result, post reads (binding.identity.storeKey :: writes) result) :
    (setCalls binding).run.Once post reads writes :=
  ⟨hfresh, fun _ => hpost _⟩

theorem once_bindCalls (binding : Binding) (policy : RebindPolicy) :
    (bindCalls binding policy).run.Once anyEnd [] [] := by
  refine once_getCalls_bind List.not_mem_nil (fun bound => ?_) fun _ => trivial
  refine Calling.once_ofExcept_bind (fun outcome _ => ?_) fun _ _ => trivial
  cases outcome with
  | unchanged => trivial
  | created | replaced =>
    -- The key has been read, but it has not been written.
    exact Calling.once_bind_anyEnd anyEnd
      (once_setCalls List.not_mem_nil fun _ => trivial) fun _ _ _ _ => trivial

end Bindings

open Bindings (getCalls requireCalls setCalls bindCalls)

/-! ## Registration -/

namespace Registration

/-- A registration binds the key of its sender, and makes no other call. -/
def executeCalls (config : Config) (ctx : BlockContext) (message : RegisterMessage) :
    Calling RegisterReply := do
  let envelope ← prove config ctx message
  let outcome ← bindCalls ⟨.account message.sender, envelope.publicKey⟩ config.rebindPolicy
  record (.registered ctx.height message.sender outcome)
  return {}

variable (config : Config) (ctx : BlockContext) (message : RegisterMessage)

theorem performs_executeCalls :
    (executeCalls config ctx message).Performs (execute config ctx message) := by
  refine .bind (.lift (prove config ctx message)) fun envelope => ?_
  refine .bind (Bindings.performs_bindCalls _ _) fun outcome => ?_
  exact .bind (.lift (record _)) fun _ => .pure _

theorem once_executeCalls : (executeCalls config ctx message).run.Once anyEnd [] [] := by
  refine Calling.once_lift_bind (fun envelope => ?_) fun _ => trivial
  exact Calling.once_bind_anyEnd _ (Bindings.once_bindCalls _ _) fun _ _ _ _ => trivial

end Registration

/-! ## Authentication -/

namespace Authentication

/-- The check of an envelope against the binding of its signer reads this binding. -/
def checkSignerCalls (height : UInt64) (identity : Identity) (envelope : Envelope) :
    Calling Unit := do
  let bound ← (requireCalls identity).result
  let key ← (orRecord (fun _ => .bindingMissing height identity) bound : Attempt _)
  if key ≠ envelope.publicKey then
    record (.keyDiffers height identity)
    throw (.keyMismatch identity)
  else if !Signature.verify key (accountHash key) envelope.signature then
    record (.signatureInvalid height identity)
    throw .verificationFailed
  else
    record (.signatureVerified height identity)

/-- The check of an envelope in a memo makes no call before the signer is known. -/
def checkEnvelopeCalls (height : UInt64) (tx : Transaction) (envelope : Envelope) :
    Calling Unit := do
  (orRecord (.envelopeIncomplete height) envelope.validate : Attempt _)
  let identity ← (orRecord (.signerUnresolved height) (signer tx) : Attempt _)
  checkSignerCalls height identity envelope

/-- A transaction with an envelope has it checked. -/
def authenticateCalls (config : Config) (ctx : BlockContext) (tx : Transaction)
    (simulate : Bool) : Calling Admission :=
  if simulate ∨ ctx.height = config.genesisHeight then do
    record (.checkBypassed ctx.height simulate)
    return .bypassed
  else if tx.memo = "" then
    return .noMemo
  else do
    match ← (orRecord (.envelopeMalformed ctx.height)
      (Envelope.ofMemo config.memoPrefix tx.memo) : Attempt _) with
    | none =>
      record (.memoUnsigned ctx.height)
      return .noPrefix
    | some envelope =>
      checkEnvelopeCalls ctx.height tx envelope
      return .verified

theorem reads_checkSignerCalls (height : UInt64) (identity : Identity) (envelope : Envelope) :
    (checkSignerCalls height identity envelope).Reads
      fun store => checkSigner store height identity envelope := by
  intro store
  dsimp only
  rw [checkSignerCalls, (Bindings.reads_requireCalls identity).byKey_result_bind, checkSigner]
  -- What is left works with what was read and does not look at the store.
  generalize Bindings.require store identity = bound
  revert store
  refine Calling.Reads.bind (.lift _) fun key => ?_
  split_ifs
  · exact .bind (.lift (record _)) fun _ => .throw _
  · exact .bind (.lift (record _)) fun _ => .throw _
  · exact .lift (record _)

theorem reads_checkEnvelopeCalls (height : UInt64) (tx : Transaction) (envelope : Envelope) :
    (checkEnvelopeCalls height tx envelope).Reads
      fun store => checkEnvelope store height tx envelope := by
  refine .bind (.lift _) fun _ => ?_
  refine .bind (.lift _) fun identity => ?_
  exact reads_checkSignerCalls height identity envelope

theorem once_checkEnvelopeCalls (height : UInt64) (tx : Transaction) (envelope : Envelope) :
    (checkEnvelopeCalls height tx envelope).run.Once anyEnd [] [] := by
  refine Calling.once_lift_bind (fun _ => ?_) fun _ => trivial
  refine Calling.once_lift_bind (fun identity => ?_) fun _ => trivial
  refine Calling.once_result_bind ?_
  refine Bindings.once_requireCalls List.not_mem_nil fun bound => ?_
  refine Calling.once_lift_bind (fun key => ?_) fun _ => trivial
  split_ifs <;> trivial

variable (config : Config) (ctx : BlockContext) (tx : Transaction) (simulate : Bool)

theorem reads_authenticateCalls : (authenticateCalls config ctx tx simulate).Reads
    fun store => authenticate config store ctx tx simulate := by
  unfold authenticateCalls authenticate
  split_ifs
  · exact .bind (.lift (record _)) fun _ => .pure _
  · exact .pure _
  · refine .bind (.lift _) fun envelope => ?_
    cases envelope with
    | none => exact .bind (.lift (record _)) fun _ => .pure _
    | some envelope =>
      exact .bind (reads_checkEnvelopeCalls ctx.height tx envelope) fun _ => .pure _

theorem once_authenticateCalls :
    (authenticateCalls config ctx tx simulate).run.Once anyEnd [] [] := by
  unfold authenticateCalls
  split_ifs
  · trivial
  · trivial
  · refine Calling.once_lift_bind (fun envelope => ?_) fun _ => trivial
    cases envelope with
    | none => trivial
    | some envelope =>
      exact Calling.once_bind_anyEnd _ (once_checkEnvelopeCalls ctx.height tx envelope)
        fun _ _ _ _ => trivial

end Authentication

/-! ## Votes -/

namespace Voting

/-- The check of a validator's signature reads the binding of the validator. -/
def checkSignatureCalls (validator : Address) (hash : Hash) (signature : Bytes) :
    Calling Check := do
  match ← getCalls (.validator validator) with
  | some key => MonadExcept.ofExcept (verifyWith key hash signature .bound)
  | none =>
    match Signature.recover hash signature with
    | .ok key => MonadExcept.ofExcept (verifyWith key hash signature (.recovered key))
    | .error e => throw (.recoveryFailed e)

/-- An extension that can be read has its signature checked. -/
def verifyCalls (config : Config) (request : CheckRequest) : Calls Verdict :=
  if request.extension = [] then
    if config.extensionsEnabled request.height then do
      record (.extensionMissing request.height request.validator)
      return .reject
    else return .accept
  else
    match VoteExtension.decode request.extension with
    | .error e => do
      record (.extensionUndecodable request.height request.validator e)
      return .reject
    | .ok extension => do
      match ← (checkSignatureCalls request.validator request.hash extension.signature).run with
      | .ok check =>
        record (.extensionVerified request.height request.validator (check != .bound))
        return .accept
      | .error e =>
        record (.extensionUnverified request.height request.validator e)
        return .reject

theorem reads_checkSignatureCalls (validator : Address) (hash : Hash) (signature : Bytes) :
    (checkSignatureCalls validator hash signature).Reads fun store =>
      MonadExcept.ofExcept (checkSignature store validator hash signature) := by
  intro store
  dsimp only
  rw [checkSignatureCalls, (Bindings.reads_getCalls (.validator validator)).byKey_bind,
    checkSignature]
  rcases Bindings.get store (.validator validator) with e | _ | key
  · rfl
  · dsimp only
    cases Signature.recover hash signature with
    | error e => rfl
    | ok key => exact Calling.Reads.ofExcept _ store
  · exact Calling.Reads.ofExcept _ store

theorem once_checkSignatureCalls {post : List Bytes → List Bytes → Except Error Check → Prop}
    {validator : Address} (hash : Hash) (signature : Bytes)
    (hfresh : (Identity.validator validator).storeKey ∉ reads)
    (hpost : ∀ result, post ((Identity.validator validator).storeKey :: reads) writes result) :
    (checkSignatureCalls validator hash signature).run.Once post reads writes := by
  -- The binding is all that is read: a key that is recovered comes from the signature.
  refine Bindings.once_getCalls_bind hfresh (fun bound => ?_) fun e => hpost _
  cases bound with
  | some key => exact Calling.once_ofExcept (hpost _)
  | none =>
    dsimp only
    cases Signature.recover hash signature with
    | error e => exact hpost _
    | ok key => exact Calling.once_ofExcept (hpost _)

theorem byKey_verifyCalls (config : Config) (request : CheckRequest) (store : HostStore) :
    (verifyCalls config request).byKey.run store =
      (fun verdict => (verdict, store)) <$> verify config store request := by
  unfold verifyCalls verify
  split_ifs
  · rfl
  · rfl
  · cases VoteExtension.decode request.extension with
    | error e => rfl
    | ok extension =>
      dsimp only
      rw [Calls.byKey_bind, StateT.run_bind, reads_checkSignatureCalls, Attempt.run_ofExcept,
        map_pure, pure_bind]
      cases checkSignature store request.validator request.hash extension.signature <;> rfl

theorem once_verifyCalls (config : Config) (request : CheckRequest) :
    (verifyCalls config request).Once anyEnd [] [] := by
  unfold verifyCalls
  split_ifs
  · trivial
  · trivial
  · cases VoteExtension.decode request.extension with
    | error e => trivial
    | ok extension =>
      refine .bind (once_checkSignatureCalls _ _ List.not_mem_nil fun result => ?_)
      cases result <;> trivial

end Voting

/-! ## Proposals -/

namespace Proposal

/-- A vote whose extension can be read has its signature checked. -/
def examineCalls (blockHash : Hash) (vote : Vote) : Calling (Option ValidExtension) :=
  match VoteExtension.decode vote.extension with
  | .error e => do
    record (.voteMalformed vote.validator e)
    return none
  | .ok extension => do
    match ← (Voting.checkSignatureCalls vote.validator blockHash extension.signature).result with
    | .ok check => return some ⟨vote.validator, extension.signature, check⟩
    | .error (.store e) => throw (.store e)
    | .error e =>
      record (.voteUnverifiable vote.validator e)
      return none

/-- The votes are examined in turn, except for those without an extension and those of validators
that have had theirs examined. -/
def validAmongCalls (blockHash : Hash) (seen : List Address) :
    List Vote → Calling (List ValidExtension)
  | [] => return []
  | vote :: rest =>
    if vote.extension = [] then validAmongCalls blockHash seen rest
    else if vote.validator ∈ seen then do
      record (.voteDuplicate vote.validator)
      validAmongCalls blockHash seen rest
    else do
      let found ← examineCalls blockHash vote
      let others ← validAmongCalls blockHash (vote.validator :: seen) rest
      return found.toList ++ others

theorem validAmongCalls_cons (blockHash : Hash) (seen : List Address) (vote : Vote)
    (rest : List Vote) :
    validAmongCalls blockHash seen (vote :: rest) =
      if vote.extension = [] then validAmongCalls blockHash seen rest
      else if vote.validator ∈ seen then do
        record (.voteDuplicate vote.validator)
        validAmongCalls blockHash seen rest
      else do
        let found ← examineCalls blockHash vote
        let others ← validAmongCalls blockHash (vote.validator :: seen) rest
        return found.toList ++ others := rfl

/-- Putting a block together makes no call but for the votes. -/
def prepareCalls (config : Config) (request : PrepareRequest) : Calling PrepareReply := do
  let valid ← validAmongCalls request.lastCommit.blockHash [] request.lastCommit.votes
  let valid ← (capped config request.height valid : Attempt _)
  let txs ← (inject request.height request.txs valid : Attempt _)
  return ⟨txs⟩

/-- Bindings are written in turn, up to the first write that fails. -/
def learnCalls (height : UInt64) : List Binding → Calling Unit
  | [] => return ()
  | binding :: rest => do
    tryCatch (setCalls binding) fun e => do
      record (.bindingNotPersisted height e)
      throw e
    learnCalls height rest

/-- A block is checked with what the votes read, and then what it teaches is written. -/
def checkAndLearnCalls (config : Config) (request : ProcessRequest) : Calling Unit := do
  let valid ← validAmongCalls request.lastCommit.blockHash [] request.lastCommit.votes
  match ← MonadExcept.ofExcept (check config request.txs valid) with
  | none => return ()
  | some lesson =>
    learnCalls request.height lesson.bindings
    record (.aggregateAccepted request.height lesson.entries lesson.bindings.length)

/-- The verdict is given when all calls are made. -/
def processCalls (config : Config) (request : ProcessRequest) : Calls Verdict := do
  match ← (checkAndLearnCalls config request).run with
  | .ok () => return .accept
  | .error e =>
    record (.proposalRejected request.height e)
    return .reject

/-! ### What the calls come to -/

theorem reads_examineCalls (blockHash : Hash) (vote : Vote) :
    (examineCalls blockHash vote).Reads fun store => examine store blockHash vote := by
  unfold examineCalls examine
  cases VoteExtension.decode vote.extension with
  | error e => exact .bind (.lift (record _)) fun _ => .pure _
  | ok extension =>
    intro store
    dsimp only
    rw [(Voting.reads_checkSignatureCalls vote.validator blockHash
      extension.signature).byKey_result_bind]
    rcases Voting.checkSignature store vote.validator blockHash extension.signature with e | check
    · -- A failing store ends both, any other failure drops the vote in both.
      cases e <;> rfl
    · rfl

theorem reads_validAmongCalls (blockHash : Hash) (seen : List Address) (votes : List Vote) :
    (validAmongCalls blockHash seen votes).Reads
      fun store => validAmong store blockHash seen votes := by
  induction votes generalizing seen with
  | nil => exact .pure []
  | cons vote rest ih =>
    rw [validAmongCalls_cons]
    unfold validAmong
    split_ifs
    · exact ih seen
    · exact .bind (.lift (record _)) fun _ => ih seen
    · refine .bind (reads_examineCalls blockHash vote) fun found => ?_
      exact .bind (ih _) fun others => .pure _

theorem reads_prepareCalls (config : Config) (request : PrepareRequest) :
    (prepareCalls config request).Reads fun store => prepare config store request := by
  refine .bind (reads_validAmongCalls _ _ _) fun valid => ?_
  refine .bind (.lift _) fun chosen => ?_
  exact .bind (.lift _) fun txs => .pure _

theorem performs_learnCalls (height : UInt64) (bindings : List Binding) :
    (learnCalls height bindings).Performs (learn height bindings) := by
  induction bindings with
  | nil => exact .pure _
  | cons binding rest ih =>
    refine .bind (.tryCatch (Bindings.performs_setCalls binding) fun e => ?_) fun _ => ih
    exact .bind (.lift (record _)) fun _ => .throw _

theorem performs_checkAndLearnCalls (config : Config) (request : ProcessRequest) :
    (checkAndLearnCalls config request).Performs (checkAndLearn config request) := by
  refine .bind_reads (reads_validAmongCalls _ _ _) fun valid => ?_
  refine .bind (.ofExcept _) fun lesson => ?_
  cases lesson with
  | none => exact .pure _
  | some lesson =>
    exact .bind (performs_learnCalls request.height lesson.bindings) fun _ => .lift (record _)

theorem byKey_processCalls (config : Config) (request : ProcessRequest) :
    (processCalls config request).byKey = process config request := by
  funext store
  show (processCalls config request).byKey.run store = (process config request).run store
  rw [processCalls, process, Calls.byKey_bind, StateT.run_bind, StateT.run_bind,
    performs_checkAndLearnCalls config request store]
  refine bind_congr fun (result, store) => ?_
  cases result <;> rfl

/-! ### Which keys are used -/

/-- The keys under which validators have their bindings. -/
def voterKeys (validators : List Address) : List Bytes :=
  validators.map fun validator => (Identity.validator validator).storeKey

/-- Extensions are of different validators, none of which has voted before. -/
structure Distinct (seen : List Address) (valid : List ValidExtension) : Prop where
  /-- The validators are different. -/
  nodup : (valid.map ValidExtension.validator).Nodup
  /-- Their votes have not been examined before. -/
  notMem : ∀ extension ∈ valid, extension.validator ∉ seen

theorem Distinct.of_cons {seen : List Address} {validator : Address} {valid : List ValidExtension}
    (h : Distinct (validator :: seen) valid) : Distinct seen valid where
  nodup := h.nodup
  notMem extension hmem hseen := h.notMem extension hmem (List.mem_cons_of_mem _ hseen)

theorem Distinct.cons {seen : List Address} {extension : ValidExtension}
    {valid : List ValidExtension} (h : Distinct (extension.validator :: seen) valid)
    (hseen : extension.validator ∉ seen) : Distinct seen (extension :: valid) where
  nodup := by
    refine List.nodup_cons.2 ⟨fun hmem => ?_, h.nodup⟩
    obtain ⟨other, hother, heq⟩ := List.mem_map.1 hmem
    exact h.notMem other hother (heq ▸ List.mem_cons_self)
  notMem := List.forall_mem_cons.2 ⟨hseen, h.of_cons.notMem⟩

/-- A vote reads the key of its validator at most, and what counts is of this validator. -/
theorem once_examineCalls
    {post : List Bytes → List Bytes → Except Error (Option ValidExtension) → Prop}
    {blockHash : Hash} {vote : Vote} (hfresh : (Identity.validator vote.validator).storeKey ∉ reads)
    (hpost : ∀ reads', reads' ⊆ (Identity.validator vote.validator).storeKey :: reads →
      ∀ result, (∀ extension, result = .ok (some extension) →
        extension.validator = vote.validator) → post reads' writes result) :
    (examineCalls blockHash vote).run.Once post reads writes := by
  unfold examineCalls
  cases VoteExtension.decode vote.extension with
  | error e => exact hpost _ (List.subset_cons_self _ _) _ nofun
  | ok extension =>
    refine Calling.once_result_bind ?_
    refine Voting.once_checkSignatureCalls _ _ hfresh fun result => ?_
    have hsubset := List.Subset.refl ((Identity.validator vote.validator).storeKey :: reads)
    cases result with
    | ok check =>
      apply hpost _ hsubset (.ok (some ⟨vote.validator, extension.signature, check⟩))
      rintro _ ⟨⟩
      rfl
    | error e =>
      cases e with
      | store e => exact hpost _ hsubset (.error (.store e)) nofun
      | _ => exact hpost _ hsubset (.ok none) nofun

/-- The votes read the keys of validators that have not been read before, each once, and what counts
is of different validators. -/
theorem once_validAmongCalls (blockHash : Hash) (seen : List Address) (votes : List Vote)
    (hreads : reads ⊆ voterKeys seen) :
    (validAmongCalls blockHash seen votes).run.Once
      (fun _ writes' result =>
        writes' = writes ∧ ∀ valid, result = .ok valid → Distinct seen valid)
      reads writes := by
  induction votes generalizing seen reads with
  | nil =>
    refine ⟨rfl, ?_⟩
    rintro _ ⟨⟩
    exact ⟨.nil, nofun⟩
  | cons vote rest ih =>
    rw [validAmongCalls_cons]
    split_ifs with hempty hseen
    · exact ih seen hreads
    · exact Calling.once_lift_bind (fun _ => ih seen hreads) fun _ => ⟨rfl, nofun⟩
    · have hfresh : (Identity.validator vote.validator).storeKey ∉ reads := by
        intro hmem
        obtain ⟨validator, hvalidator, hkey⟩ := List.mem_map.1 (hreads hmem)
        cases Identity.storeKey_injective hkey
        exact hseen hvalidator
      -- The vote may read the key of its validator, which then counts as seen.
      refine Calling.once_bind (fun reads' writes' result => writes' = writes ∧
        reads' ⊆ voterKeys (vote.validator :: seen) ∧
        ∀ extension, result = .ok (some extension) → extension.validator = vote.validator)
        (once_examineCalls hfresh fun reads' hreads' result hresult => ?_) ?_ ?_
      · exact ⟨rfl, List.Subset.trans hreads' (List.cons_subset_cons _ hreads), hresult⟩
      · rintro reads' _ found ⟨rfl, hreads', hfound⟩
        refine Calling.once_bind _ (ih (vote.validator :: seen) hreads') ?_ ?_
        · rintro _ _ others ⟨rfl, hothers⟩
          refine ⟨rfl, ?_⟩
          rintro _ ⟨⟩
          cases found with
          | none => exact (hothers others rfl).of_cons
          | some extension =>
            rw [← hfound extension rfl] at hothers hseen
            exact (hothers others rfl).cons hseen
        · rintro _ _ e ⟨rfl, -⟩
          exact ⟨rfl, nofun⟩
      · rintro _ _ e ⟨rfl, -, -⟩
        exact ⟨rfl, nofun⟩

theorem once_prepareCalls (config : Config) (request : PrepareRequest) :
    (prepareCalls config request).run.Once anyEnd [] [] := by
  refine Calling.once_bind_anyEnd _ (once_validAmongCalls _ _ _ (List.nil_subset _))
    fun reads writes valid _ => ?_
  refine Calling.once_lift_bind (fun chosen => ?_) fun _ => trivial
  exact Calling.once_lift_bind (fun txs => trivial) fun _ => trivial

/-- Bindings under different keys are written once each. -/
theorem once_learnCalls (height : UInt64) {bindings : List Binding}
    (hnodup : (bindings.map fun binding => binding.identity.storeKey).Nodup)
    (hfresh : ∀ binding ∈ bindings, binding.identity.storeKey ∉ writes) :
    (learnCalls height bindings).run.Once anyEnd reads writes := by
  induction bindings generalizing writes with
  | nil => trivial
  | cons binding rest ih =>
    obtain ⟨hhead, hnodup⟩ := List.nodup_cons.1 hnodup
    obtain ⟨hwrites, hfresh⟩ := List.forall_mem_cons.1 hfresh
    refine Calling.once_bind_anyEnd (fun reads' writes' _ =>
      reads' = reads ∧ writes' = binding.identity.storeKey :: writes)
      (Calling.once_tryCatch (Bindings.once_setCalls hwrites fun result => ?_)) ?_
    · cases result <;> exact ⟨rfl, rfl⟩
    · rintro _ _ _ ⟨rfl, rfl⟩
      refine ih hnodup fun other hother hmem => ?_
      rcases List.mem_cons.1 hmem with heq | hmem
      · exact hhead (List.mem_map.2 ⟨other, hother, heq⟩)
      · exact hfresh other hother hmem

theorem once_checkAndLearnCalls (config : Config) (request : ProcessRequest) :
    (checkAndLearnCalls config request).run.Once anyEnd [] [] := by
  refine Calling.once_bind_anyEnd _ (once_validAmongCalls _ _ _ (List.nil_subset _)) ?_
  rintro reads _ valid ⟨rfl, hdistinct⟩
  refine Calling.once_ofExcept_bind (fun lesson hcheck => ?_) fun _ _ => trivial
  cases lesson with
  | none => trivial
  | some lesson =>
    -- What the block teaches is of different validators, as what counts is.
    obtain ⟨used, hpasses, hlearned⟩ :=
      (check_eq_ok_iff config request.txs (hdistinct valid rfl).nodup).1 ⟨_, hcheck, rfl⟩
    have hinjective : Function.Injective Identity.storeKey := fun _ _ => Identity.storeKey_injective
    have hkeys := (nodup_learned hpasses.nodup_validators).map hinjective
    rw [hlearned, List.map_map] at hkeys
    exact Calling.once_bind_anyEnd _
      (once_learnCalls request.height hkeys fun _ _ => List.not_mem_nil) fun _ _ _ _ => trivial

theorem once_processCalls (config : Config) (request : ProcessRequest) :
    (processCalls config request).Once anyEnd [] [] := by
  refine .bind ((once_checkAndLearnCalls config request).mono fun _ _ result _ => ?_)
  cases result <;> trivial

end Proposal

/-! ## Operations of a node -/

namespace Node

/-- Everything that a node does for an operation, call by call. -/
def calls (node : Node) : Operation → Calls Reply
  | .register ctx message =>
    .registered <$> (Registration.executeCalls node.config ctx message).run
  | .authenticate ctx tx simulate =>
    .authenticated <$> (Authentication.authenticateCalls node.config ctx tx simulate).run
  | .extend request =>
    .extended <$> ((Voting.extend node.config node.signingKey request).run : Calls _)
  | .verify request => .verified <$> Voting.verifyCalls node.config request
  | .prepare request => .prepared <$> (Proposal.prepareCalls node.config request).run
  | .process request => .processed <$> Proposal.processCalls node.config request
  | .lookup identity => .found <$> (getCalls identity).run

/-- The calls of an operation, made to a store with faults by key, come to what the node does. -/
theorem byKey_calls (node : Node) (operation : Operation) :
    (node.calls operation).byKey = node.perform operation := by
  funext store
  show (node.calls operation).byKey.run store = (node.perform operation).run store
  -- Only a registration and a block that is processed leave another store.
  cases operation with
  | register ctx message =>
    rw [calls, Calls.byKey_map, StateT.run_map, Registration.performs_executeCalls,
      ← StateT.run_map]
    rfl
  | authenticate ctx tx simulate =>
    exact Calls.byKey_map_of_eq
      (Authentication.reads_authenticateCalls node.config ctx tx simulate) _ store
  | extend request =>
    exact Calls.byKey_map_of_eq (fun _ => congrFun (Calls.byKey_lift _) _) _ store
  | verify request =>
    exact Calls.byKey_map_of_eq (Voting.byKey_verifyCalls node.config request) _ store
  | prepare request =>
    exact Calls.byKey_map_of_eq (Proposal.reads_prepareCalls node.config request) _ store
  | process request =>
    rw [calls, Calls.byKey_map, Proposal.byKey_processCalls]
    rfl
  | lookup identity =>
    refine (Calls.byKey_map_of_eq (Bindings.reads_getCalls identity) _ store).trans ?_
    rw [Attempt.run_ofExcept]
    rfl

/-- No operation reads a key twice or writes a key twice, however its calls are answered. -/
theorem once_calls (node : Node) (operation : Operation) :
    (node.calls operation).Once anyEnd [] [] := by
  cases operation with
  | register ctx message => exact .bind (Registration.once_executeCalls node.config ctx message)
  | authenticate ctx tx simulate =>
    exact .bind (Authentication.once_authenticateCalls node.config ctx tx simulate)
  | extend request => exact .bind (.lift trivial)
  | verify request => exact .bind (Voting.once_verifyCalls node.config request)
  | prepare request => exact .bind (Proposal.once_prepareCalls node.config request)
  | process request => exact .bind (Proposal.once_processCalls node.config request)
  | lookup identity => exact .bind (Bindings.once_getCalls List.not_mem_nil fun _ => trivial)

/-- Whichever calls of an operation fail, there are faults by key with which the operation gives the
same reply, the same events and the same contents. -/
theorem exists_perform_eq (node : Node) (operation : Operation) (faults : Nat → Faults)
    (contents : Store) :
    ∃ common : Faults,
      (fun (reply, store) => (reply, store.contents)) <$>
          node.perform operation ⟨contents, common⟩ =
        (node.calls operation).run faults contents := by
  obtain ⟨common, -, -, hrun⟩ :=
    Calls.exists_run_const_eq (node.once_calls operation) .none faults contents
  refine ⟨common, ?_⟩
  rw [← byKey_calls]
  show _ <$> _ <$> (node.calls operation).run (fun _ => common) contents = _
  rw [hrun, Functor.map_map]
  exact id_map _

/-- Answers operations one after the other, where each call to the store meets faults of its own. -/
def runByCall (node : Node) : List ((Nat → Faults) × Operation) → StateT Store Logged (List Reply)
  | [] => return []
  | (faults, operation) :: rest => do
    let reply ← (node.calls operation).run faults
    return reply :: (← runByCall node rest)

/-- Whichever calls fail in a run, a run of the same operations with faults by key gives the same
replies, the same events and the same contents. -/
theorem exists_run_eq_runByCall (node : Node) (steps : List ((Nat → Faults) × Operation))
    (contents : Store) :
    ∃ common : List (Faults × Operation), common.map Prod.snd = steps.map Prod.snd ∧
      node.run common contents = node.runByCall steps contents := by
  induction steps generalizing contents with
  | nil => exact ⟨[], rfl, rfl⟩
  | cons step rest ih =>
    obtain ⟨faults, operation⟩ := step
    obtain ⟨head, hhead⟩ := node.exists_perform_eq operation faults contents
    -- The rest starts from what the first operation leaves.
    obtain ⟨tail, htail, hrest⟩ := ih ((node.calls operation).run faults contents).value.2
    refine ⟨(head, operation) :: tail, congrArg (operation :: ·) htail, ?_⟩
    show (_ <$> node.perform operation ⟨contents, head⟩ >>= fun (reply, contents) =>
        (node.run tail contents >>= fun (replies, contents) => pure (reply :: replies, contents))) =
      (node.calls operation).run faults contents >>= fun (reply, contents) =>
        (node.runByCall rest contents >>= fun (replies, contents) =>
          pure (reply :: replies, contents))
    rw [hhead]
    refine Logged.bind_congr_value ?_
    show (node.run tail _ >>= _) = (node.runByCall rest _ >>= _)
    rw [hrest]

end Node

end SecondFactor
