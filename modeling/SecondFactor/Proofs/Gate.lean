import SecondFactor.Proofs.Authentication
import SecondFactor.Proofs.Proposal.Prepare

/-!
# Requirements of Authentication

A transaction whose memo starts with the prefix passes if it meets a list of requirements. They are
checked in order, and the error is that of the first one that is not met. This module gives the
requirements without the checks (`requirements`): what is read of the envelope, of the transaction
and of the store for one of them does not depend on how the others turn out.

## Main results

* `ofMemo_append`: the envelope of a memo with the prefix is that of the document behind it, and
  `ofMemo_eq_none_iff`: there is none exactly in a memo without the prefix;
* `validate_eq_verdict`, `signer_eq_verdict` and `value_checkSigner_eq_verdict`: each check decides
  by its part of the requirements;
* `authenticate_eq_verdict`: authentication decides by all of them, lets everything else pass
  without verifying it, and reads nothing of the store but the key of the primary signer.
-/

namespace SecondFactor

/-! ## Requirements -/

/-- Something that is required. -/
structure Requirement where
  /-- Whether it is met. -/
  met : Bool
  /-- The error if it is not, though everything required before is. -/
  error : Error

namespace Requirement

/-- What comes of requirements that are checked in order: the error of the first one that is not
met, if there is one. -/
def verdict (requirements : List Requirement) : Except Error Unit :=
  match requirements.find? (!·.met) with
  | none => .ok ()
  | some unmet => .error unmet.error

@[simp] theorem verdict_nil : verdict [] = .ok () := rfl

@[simp] theorem verdict_cons (requirement : Requirement) (rest : List Requirement) :
    verdict (requirement :: rest) =
      if requirement.met then verdict rest else .error requirement.error := by
  unfold verdict
  cases h : requirement.met <;> simp [h]

/-- Further requirements count only where those before are met. -/
theorem verdict_append (requirements rest : List Requirement) :
    verdict (requirements ++ rest) =
      match verdict requirements with
      | .ok () => verdict rest
      | .error e => .error e := by
  induction requirements with
  | nil => rfl
  | cons requirement requirements ih =>
    cases h : requirement.met <;> simp [h, ih]

/-- There is no error exactly if all requirements are met. -/
theorem verdict_eq_ok_iff {requirements : List Requirement} :
    verdict requirements = .ok () ↔ ∀ requirement ∈ requirements, requirement.met = true := by
  induction requirements with
  | nil => simp
  | cons requirement requirements ih =>
    cases h : requirement.met <;> simp [h, ih]

end Requirement

open Requirement (verdict verdict_append verdict_cons verdict_eq_ok_iff)

namespace Authentication

/-! ## The memo -/

/-- Behind the prefix a memo holds the document of its envelope. -/
theorem ofMemo_append (memoPrefix rest : String) :
    Envelope.ofMemo memoPrefix (memoPrefix ++ rest) =
      (Envelope.decode (Text.utf8 rest)).map some := by
  have hbody : Envelope.bodyOf? memoPrefix (Text.utf8 (memoPrefix ++ rest)) =
      some (Text.utf8 rest) :=
    Envelope.bodyOf?_eq_some_iff.2 (Text.utf8_append memoPrefix rest).symm
  rw [Envelope.ofMemo, hbody]
  dsimp only
  cases Envelope.decode (Text.utf8 rest) <;> rfl

/-- A memo without the prefix carries no envelope, and only such a memo does not. -/
theorem ofMemo_eq_none_iff {memoPrefix memo : String} :
    Envelope.ofMemo memoPrefix memo = .ok none ↔ ∀ rest, memo ≠ memoPrefix ++ rest := by
  constructor
  · rintro h rest rfl
    rw [ofMemo_append] at h
    cases hdecode : Envelope.decode (Text.utf8 rest) <;> rw [hdecode] at h <;> cases h
  · intro h
    unfold Envelope.ofMemo
    cases hbody : Envelope.bodyOf? memoPrefix (Text.utf8 memo) with
    | none => rfl
    | some body =>
      have happend := Envelope.bodyOf?_eq_some_iff.1 hbody
      obtain ⟨rest, hrest, -⟩ := Text.utf8_eq_append_iff.1 happend.symm
      exact absurd hrest (h rest)

/-! ## The parts of the check -/

/-- An envelope has bytes in both fields. -/
def complete (envelope : Envelope) : List Requirement :=
  [⟨envelope.publicKey ≠ [], .invalidRequest .missingPublicKey⟩,
    ⟨envelope.signature ≠ [], .invalidRequest .missingSignature⟩]

theorem validate_eq_verdict (envelope : Envelope) :
    envelope.validate = verdict (complete envelope) := by
  by_cases hkey : envelope.publicKey = [] <;> by_cases hsignature : envelope.signature = [] <;>
    simp [Envelope.validate, complete, hkey, hsignature]

/-- The address of the first signer. The zero address stands for that of a transaction that has no
signers, which is refused before the address matters. -/
def declared (tx : Transaction) : Address :=
  tx.signers.headD (.zero 20)

/-- A transaction has a signer, and its first signature is that of the first signer and comes with
a public key. -/
def signed (tx : Transaction) : List Requirement :=
  let first := tx.signatures.headD ⟨declared tx, none, []⟩
  [⟨tx.signers ≠ [], .transactionShape .noSigners⟩,
    ⟨tx.signatures ≠ [], .transactionShape .noSignatures⟩,
    ⟨first.address = declared tx,
      .transactionShape (.foreignSignature first.address (declared tx))⟩,
    ⟨first.publicKey.getD [] ≠ [], .transactionShape .noPublicKey⟩]

theorem signer_eq_verdict (tx : Transaction) :
    signer tx =
      match verdict (signed tx) with
      | .ok () => .ok (.account (declared tx))
      | .error e => .error e := by
  -- Only where there are a signer and a signature do the last two requirements decide.
  rcases tx with ⟨memo, _ | ⟨declared, _⟩, _ | ⟨first, _⟩⟩
  case cons.cons =>
    by_cases haddress : first.address = declared <;>
      by_cases hkey : first.publicKey.getD [] = [] <;>
      simp [signer, Transaction.primarySigner, signed, Authentication.declared, haddress, hkey]
  all_goals simp [signer, Transaction.primarySigner, signed]

/-- The key that is bound to an account is that of the envelope, and the envelope was made with
it. -/
def keyed (contents : Store) (account : Address) (envelope : Envelope) : List Requirement :=
  let bound := contents.get? (Identity.account account).storeKey
  let key := bound.getD []
  [⟨bound.isSome, .unknownBinding (.account account)⟩,
    ⟨key = envelope.publicKey, .keyMismatch (.account account)⟩,
    ⟨Signature.verify key (accountHash key) envelope.signature, .verificationFailed⟩]

theorem value_checkSigner_eq_verdict (contents : Store) (height : UInt64) (account : Address)
    (envelope : Envelope) :
    (checkSigner (.reliable contents) height (.account account) envelope).run.value =
      verdict (keyed contents account envelope) := by
  rw [value_checkSigner, Bindings.require, Bindings.get_reliable]
  cases h : contents.get? (Identity.account account).storeKey with
  | none => simp [keyed, h]
  | some key =>
    by_cases hkey : key = envelope.publicKey <;> simp [keyed, h, hkey]

/-! ## All requirements -/

/-- What is required of a transaction whose memo is the prefix and `rest` behind it, in the order of
the checks. Where `rest` is no envelope or no key is bound, a requirement is not met that comes
before those that read the envelope or the key, and these read an empty one. -/
def requirements (contents : Store) (tx : Transaction) (rest : String) : List Requirement :=
  let decoded := Envelope.decode (Text.utf8 rest)
  let envelope := decoded.toOption.getD ⟨[], []⟩
  ⟨decoded.isOk, .malformedEnvelope (if rest = "" then .empty else .notRecord)⟩ ::
    (complete envelope ++ signed tx ++ keyed contents (declared tx) envelope)

/-- Of a memo that holds an envelope the envelope itself is required to be in order. -/
theorem requirements_of_decode {contents : Store} {tx : Transaction} {rest : String}
    {envelope : Envelope} (hdecode : Envelope.decode (Text.utf8 rest) = .ok envelope) :
    requirements contents tx rest =
      ⟨true, .malformedEnvelope (if rest = "" then .empty else .notRecord)⟩ ::
        (complete envelope ++ signed tx ++ keyed contents (declared tx) envelope) := by
  rw [requirements, hdecode]
  rfl

/-- Bytes that are no envelope are empty or no document of one. -/
theorem eq_of_decode_utf8 {rest : String} {e : Error}
    (h : Envelope.decode (Text.utf8 rest) = .error e) :
    e = .malformedEnvelope (if rest = "" then .empty else .notRecord) := by
  have hempty : Text.utf8 rest = [] ↔ rest = "" :=
    ⟨fun h => Text.utf8_injective h, fun h => h ▸ rfl⟩
  unfold Envelope.decode at h
  split at h
  · next hrest => cases h; rw [if_pos (hempty.1 hrest)]
  · next hrest =>
    rw [if_neg fun h => hrest (hempty.2 h)]
    split at h <;> cases h
    rfl

theorem value_checkEnvelope_eq_verdict (contents : Store) (height : UInt64) (tx : Transaction)
    (envelope : Envelope) :
    (checkEnvelope (.reliable contents) height tx envelope).run.value =
      verdict (complete envelope ++ signed tx ++ keyed contents (declared tx) envelope) := by
  rw [value_checkEnvelope, verdict_append, verdict_append, validate_eq_verdict, signer_eq_verdict]
  cases verdict (complete envelope) with
  | error e => rfl
  | ok _ =>
    cases verdict (signed tx) with
    | error e => rfl
    | ok _ => exact value_checkSigner_eq_verdict ..

/-- A transaction that is checked is verified if the requirements are met. -/
theorem value_authenticate_append {config : Config} {ctx : BlockContext} {tx : Transaction}
    {rest : String} (contents : Store) (hheight : ctx.height ≠ config.genesisHeight)
    (hmemo : tx.memo ≠ "") (hrest : tx.memo = config.memoPrefix ++ rest) :
    (authenticate config (.reliable contents) ctx tx false).run.value =
      match verdict (requirements contents tx rest) with
      | .ok () => .ok .verified
      | .error e => .error e := by
  rw [value_authenticate, if_neg (by simp [hheight]), if_neg hmemo, hrest, ofMemo_append]
  cases hdecode : Envelope.decode (Text.utf8 rest) with
  | error e =>
    -- The first requirement is not met.
    rw [requirements, hdecode, eq_of_decode_utf8 hdecode]
    rfl
  | ok envelope =>
    rw [requirements_of_decode hdecode, verdict_cons, if_pos rfl]
    dsimp only [Except.map]
    rw [value_checkEnvelope_eq_verdict]
    cases verdict (complete envelope ++ signed tx ++ keyed contents (declared tx) envelope) <;> rfl

/-- What is not checked passes, but is not verified. -/
theorem exists_unverified {config : Config} {ctx : BlockContext} {tx : Transaction}
    {simulate : Bool} (store : HostStore)
    (hunchecked : simulate = true ∨ ctx.height = config.genesisHeight ∨ tx.memo = "" ∨
      ∀ rest, tx.memo ≠ config.memoPrefix ++ rest) :
    ∃ admission, (authenticate config store ctx tx simulate).run.value = .ok admission ∧
      admission ≠ .verified := by
  rw [value_authenticate]
  by_cases hbypass : simulate = true ∨ ctx.height = config.genesisHeight
  · exact ⟨.bypassed, if_pos hbypass, nofun⟩
  · rw [if_neg hbypass]
    by_cases hmemo : tx.memo = ""
    · exact ⟨.noMemo, if_pos hmemo, nofun⟩
    · have hother : ∀ rest, tx.memo ≠ config.memoPrefix ++ rest := by
        simpa [hmemo, not_or.1 hbypass] using hunchecked
      rw [if_neg hmemo, ofMemo_eq_none_iff.2 hother]
      exact ⟨.noPrefix, rfl, nofun⟩

/-- An envelope is checked in the same way, and with the same events, on stores where the same key
is read for the primary signer. -/
theorem checkEnvelope_congr {store other : HostStore} {tx : Transaction}
    (hget : ∀ address, tx.primarySigner = .ok address →
      Bindings.get store (.account address) = Bindings.get other (.account address))
    (height : UInt64) (envelope : Envelope) :
    checkEnvelope store height tx envelope = checkEnvelope other height tx envelope := by
  unfold checkEnvelope signer
  -- The store is read only once the signer is known.
  cases hsigner : tx.primarySigner with
  | error e => rfl
  | ok address =>
    have hrequire : Bindings.require store (.account address) =
        Bindings.require other (.account address) := by
      rw [Bindings.require, hget address hsigner]
      rfl
    simp only [Attempt.orRecord, pure_bind, checkSigner, hrequire]

/-- Authentication reads nothing of the store but the key of the primary signer. -/
theorem authenticate_congr {store other : HostStore} {tx : Transaction}
    (hget : ∀ address, tx.primarySigner = .ok address →
      Bindings.get store (.account address) = Bindings.get other (.account address))
    (config : Config) (ctx : BlockContext) (simulate : Bool) :
    authenticate config store ctx tx simulate = authenticate config other ctx tx simulate := by
  simp only [authenticate, checkEnvelope_congr hget]

/-- On a store that does not fail, a transaction whose memo starts with the prefix passes exactly if
it meets the requirements, unless it is simulated or belongs to genesis. It is verified then, and
the error of another one is that of the first requirement that it does not meet. Everything else
passes without being verified. The result, and the events with it, depend on the store only through
the key that is bound to the primary signer. -/
theorem authenticate_by_requirements (config : Config) (contents : Store) (ctx : BlockContext)
    (tx : Transaction) (simulate : Bool) :
    let result := (authenticate config (.reliable contents) ctx tx simulate).run
    (∀ rest, simulate = false → ctx.height ≠ config.genesisHeight → tx.memo ≠ "" →
      tx.memo = config.memoPrefix ++ rest →
      ((∃ admission, result.value = .ok admission) ↔
        ∀ requirement ∈ requirements contents tx rest, requirement.met = true) ∧
      result.value =
        match (requirements contents tx rest).find? (!·.met) with
        | none => .ok .verified
        | some unmet => .error unmet.error) ∧
    ((simulate = true ∨ ctx.height = config.genesisHeight ∨ tx.memo = "" ∨
        ∀ rest, tx.memo ≠ config.memoPrefix ++ rest) →
      ∃ admission, result.value = .ok admission ∧ admission ≠ .verified) ∧
    ∀ other : Store,
      (∀ address, tx.primarySigner = .ok address →
        other.get? (Identity.account address).storeKey =
          contents.get? (Identity.account address).storeKey) →
      (authenticate config (.reliable other) ctx tx simulate).run = result := by
  intro result
  refine ⟨?_, exists_unverified _, ?_⟩
  · rintro rest rfl hheight hmemo hrest
    have hvalue : result.value = _ := value_authenticate_append contents hheight hmemo hrest
    constructor
    · rw [hvalue, ← verdict_eq_ok_iff]
      cases verdict (requirements contents tx rest) <;> simp
    · rw [hvalue, verdict]
      cases (requirements contents tx rest).find? (!·.met) <;> rfl
  · intro other hsame
    refine congrArg ExceptT.run (authenticate_congr (fun address hsigner => ?_) ..)
    rw [Bindings.get_reliable, Bindings.get_reliable, hsame address hsigner]

/-! ### A transaction before and after a registration -/

section FirstTransaction

open Node (firstEnvelope firstRegistration firstTransaction proved_firstRegistration)
open Proposal (accountRegistered firstVoter)

/-- Behind the prefix the memo of the transaction holds the envelope of the registration. -/
theorem exists_rest_firstTransaction :
    ∃ rest, firstTransaction.memo = "SECONDARY" ++ rest ∧
      Envelope.decode (Text.utf8 rest) = .ok firstEnvelope := by
  have hmemo : Text.utf8 firstTransaction.memo =
      Text.utf8 "SECONDARY" ++ Registration.body {} firstRegistration := by
    decide +kernel
  obtain ⟨rest, hrest, hbody⟩ := Text.utf8_eq_append_iff.1 hmemo
  refine ⟨rest, hrest, ?_⟩
  rw [hbody]
  exact (Registration.proved_eq_ok_iff.1 proved_firstRegistration).1

/-- The envelope of the registration is complete. -/
theorem complete_firstEnvelope :
    ∀ requirement ∈ complete firstEnvelope, requirement.met = true := by
  decide

/-- The transaction is signed by its signer. -/
theorem signed_firstTransaction :
    ∀ requirement ∈ signed firstTransaction, requirement.met = true := by
  decide

/-- Once the key is registered, the transaction meets all requirements. -/
theorem met_firstTransaction {rest : String}
    (hdecode : Envelope.decode (Text.utf8 rest) = .ok firstEnvelope) :
    ∀ requirement ∈ requirements accountRegistered firstTransaction rest,
      requirement.met = true := by
  have hget : accountRegistered.get? (Identity.account firstVoter).storeKey =
    some firstEnvelope.publicKey := Store.get?_bind_self ..
  have hproves := (Registration.proved_eq_ok_iff.1 proved_firstRegistration).2.2
  rw [Envelope.provesPossession] at hproves
  have hkeyed : ∀ requirement ∈ keyed accountRegistered firstVoter firstEnvelope,
      requirement.met = true := by
    simp [keyed, hget, hproves]
  rw [requirements_of_decode hdecode, List.forall_mem_cons, List.forall_mem_append,
    List.forall_mem_append]
  exact ⟨rfl, ⟨complete_firstEnvelope, signed_firstTransaction⟩, hkeyed⟩

/-- Before that it lacks nothing but the key. -/
theorem unmet_firstTransaction {rest : String}
    (hdecode : Envelope.decode (Text.utf8 rest) = .ok firstEnvelope) :
    (requirements .empty firstTransaction rest).find? (!·.met) =
      some ⟨false, .unknownBinding (.account firstVoter)⟩ := by
  rw [requirements_of_decode hdecode, List.find?_cons_of_neg (by simp), List.find?_append,
    List.find?_append, List.find?_eq_none.2 (by simpa using complete_firstEnvelope),
    List.find?_eq_none.2 (by simpa using signed_firstTransaction)]
  rfl

/-- The transaction is verified once its key is registered, whatever else is bound. Before that it
is refused for want of a key, unless it is simulated. -/
theorem admitted_firstTransaction :
    ∃ rest, firstTransaction.memo = "SECONDARY" ++ rest ∧
      (∀ requirement ∈ requirements accountRegistered firstTransaction rest,
        requirement.met = true) ∧
      (authenticate {} (.reliable (accountRegistered.bind ⟨.validator firstVoter, []⟩))
        { height := 2 } firstTransaction false).run.value = .ok .verified ∧
      (authenticate {} (.reliable .empty) { height := 2 } firstTransaction false).run.value =
        .error (.unknownBinding (.account firstVoter)) ∧
      ∃ admission, (authenticate {} (.reliable .empty) { height := 2 } firstTransaction
        true).run.value = .ok admission ∧ admission ≠ .verified := by
  obtain ⟨rest, hrest, hdecode⟩ := exists_rest_firstTransaction
  have hmemo : firstTransaction.memo ≠ "" := by
    rw [hrest]
    simp
  have hmet := met_firstTransaction hdecode
  obtain ⟨hregistered, -, hsame⟩ :=
    authenticate_by_requirements {} accountRegistered { height := 2 } firstTransaction false
  obtain ⟨hempty, -, -⟩ :=
    authenticate_by_requirements {} .empty { height := 2 } firstTransaction false
  obtain ⟨-, hsimulated, -⟩ :=
    authenticate_by_requirements {} .empty { height := 2 } firstTransaction true
  refine ⟨rest, hrest, hmet, ?_, ?_, hsimulated (.inl rfl)⟩
  · have hverified := (hregistered rest rfl (by decide) hmemo hrest).2
    rw [List.find?_eq_none.2 (by simpa using hmet)] at hverified
    rw [hsame]
    · exact hverified
    · -- The key of a validator does not stand where that of an account does.
      intro address hsigner
      refine Store.get?_bind_of_ne _ fun h => ?_
      cases Identity.storeKey_injective h
  · have hrefused := (hempty rest rfl (by decide) hmemo hrest).2
    rwa [unmet_firstTransaction hdecode] at hrefused

end FirstTransaction

end Authentication

end SecondFactor
