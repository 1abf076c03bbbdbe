import SecondFactor.Proofs.Authentication
import SecondFactor.Proofs.Proposal.Recheck

/-!
# Agreement of Replicas

Registrations read and write the bindings of accounts, blocks those of validators, and nothing else
reaches the store. So a node answers its registrations as if there were nothing but registrations
(`history_registrations`), and it decides on its blocks as if there were nothing but blocks
(`history_decisions`). Nodes that get the same registrations and the same blocks therefore agree,
however the two are interleaved and whatever else each of them is asked. The main statement is
`replicas_agree`.
-/

namespace SecondFactor

/-! ## Schedules -/

/-- An operation that only the host of one node asks for: the replicated state does not depend on
it. -/
def Operation.IsLocal : Operation → Prop
  | .register .. | .process _ => False
  | .authenticate .. | .extend _ | .verify _ | .prepare _ | .lookup _ => True

/-- `Schedule messages blocks operations`: in `operations` the registrations and the blocks of a
chain are interleaved, the ones and the others in their order, with local operations anywhere
between them. -/
inductive Schedule : List RegisterMessage → List ProcessRequest → List Operation → Prop
  /-- There is nothing to do. -/
  | nil : Schedule [] [] []
  /-- The next registration is executed, in some block. -/
  | register {ctx message messages blocks operations} (h : Schedule messages blocks operations) :
      Schedule (message :: messages) blocks (.register ctx message :: operations)
  /-- The next block is processed. -/
  | process {request messages blocks operations} (h : Schedule messages blocks operations) :
      Schedule messages (request :: blocks) (.process request :: operations)
  /-- The host asks for something else. -/
  | other {operation messages blocks operations} (hlocal : operation.IsLocal)
      (h : Schedule messages blocks operations) :
      Schedule messages blocks (operation :: operations)

/-- The registration in an exchange, with its result. -/
def Exchange.registration? (x : Exchange) :
    Option (RegisterMessage × Except Error RegisterReply) :=
  match x.operation, x.reply with
  | .register _ message, .registered result => some (message, result)
  | _, _ => none

/-- The block in an exchange, with the verdict on it. -/
def Exchange.decision? (x : Exchange) : Option (ProcessRequest × Verdict) :=
  match x.operation, x.reply with
  | .process request, .processed verdict => some (request, verdict)
  | _, _ => none

/-- The registrations in a history, with their results. -/
def registrations (history : List Exchange) : List (RegisterMessage × Except Error RegisterReply) :=
  history.filterMap Exchange.registration?

/-- The blocks in a history, with the verdicts on them. -/
def decisions (history : List Exchange) : List (ProcessRequest × Verdict) :=
  history.filterMap Exchange.decision?

/-- Histories with the same first part and the same rest have the same parts. -/
theorem filterMap_cons_congr {α : Type} {part? : Exchange → Option α} {x y : Exchange}
    {xs ys : List Exchange} (hfirst : part? x = part? y)
    (hrest : xs.filterMap part? = ys.filterMap part?) :
    (x :: xs).filterMap part? = (y :: ys).filterMap part? := by
  rw [List.filterMap_cons, List.filterMap_cons, hfirst, hrest]

/-! ## What an operation sees of the store -/

/-- The bindings of one kind of identities are the same in two stores. -/
def Store.SameFor (kind : Address → Identity) (store other : Store) : Prop :=
  ∀ address, store.get? (kind address).storeKey = other.get? (kind address).storeKey

theorem Store.SameFor.refl (kind : Address → Identity) (store : Store) : store.SameFor kind store :=
  fun _ => rfl

namespace Node

open Proposal (firstVoter firstVotes staged_firstVotes_reliable value_process_reliable votedHash)

variable {node other : Node} {contents contents' : Store}

/-- An operation leaves the bindings alone of a kind of which it may write none. -/
theorem sameFor_exchange {kind : Address → Identity} {store : HostStore} {operation : Operation}
    (h : ∀ address, ¬operation.MayWrite store.contents (kind address))
    (hsame : store.contents.SameFor kind contents') :
    (node.exchange store operation).after.SameFor kind contents' := by
  intro address
  rw [← hsame address]
  refine (confined node store operation).get?_eq _ fun identity hmay hkey => ?_
  obtain rfl := Identity.storeKey_injective hkey
  exact h address hmay

/-- A registration sees the bindings of accounts only. -/
theorem exchange_register_congr (hconfig : node.config = other.config)
    (hsame : contents.SameFor .account contents') (ctx ctx' : BlockContext)
    (message : RegisterMessage) :
    (node.exchange (.reliable contents) (.register ctx message)).registration? =
        (other.exchange (.reliable contents') (.register ctx' message)).registration? ∧
      (node.exchange (.reliable contents) (.register ctx message)).after.SameFor .account
        (other.exchange (.reliable contents') (.register ctx' message)).after := by
  rw [exchange_register, exchange_register, Registration.value_execute,
    Registration.value_execute, hconfig]
  cases Registration.proved other.config message with
  | error e => exact ⟨rfl, hsame⟩
  | ok envelope =>
    dsimp only
    rw [Bindings.value_bind_reliable, Bindings.value_bind_reliable, hsame message.sender]
    have hwritten : ∀ binding : Binding,
        (contents.bind binding).SameFor .account (contents'.bind binding) :=
      fun binding address => Store.get?_bindAll_congr [binding] (hsame address)
    cases Bindings.outcome ⟨.account message.sender, envelope.publicKey⟩
      (contents'.get? (Identity.account message.sender).storeKey) other.config.rebindPolicy with
    | error e => exact ⟨rfl, hsame⟩
    | ok result =>
      cases result with
      | unchanged => exact ⟨rfl, hsame⟩
      | created | replaced => exact ⟨rfl, hwritten _⟩

/-- A block sees the bindings of validators only. -/
theorem exchange_process_congr (hconfig : node.config = other.config)
    (hsame : contents.SameFor .validator contents') (request : ProcessRequest) :
    (node.exchange (.reliable contents) (.process request)).decision? =
        (other.exchange (.reliable contents') (.process request)).decision? ∧
      (node.exchange (.reliable contents) (.process request)).after.SameFor .validator
        (other.exchange (.reliable contents') (.process request)).after := by
  have hget : ∀ validator, Bindings.get (.reliable contents) (.validator validator) =
      Bindings.get (.reliable contents') (.validator validator) := by
    intro validator
    rw [Bindings.get_reliable, Bindings.get_reliable, hsame validator]
  have hstaged : Proposal.staged other.config (.reliable contents) request =
      Proposal.staged other.config (.reliable contents') request := by
    rw [Proposal.staged, Proposal.staged, Proposal.validExtensions_congr hget]
  rw [exchange_process, exchange_process, Proposal.value_process_reliable,
    Proposal.value_process_reliable, hconfig, hstaged]
  cases Proposal.staged other.config (.reliable contents') request with
  | error e => exact ⟨rfl, hsame⟩
  | ok bindings =>
    exact ⟨rfl, fun address => Store.get?_bindAll_congr bindings (hsame address)⟩

/-! ## Runs of one kind -/

variable {messages : List RegisterMessage} {blocks : List ProcessRequest}
  {operations : List Operation}

/-- A node answers all its registrations, as one that is asked for nothing else. -/
theorem history_registrations (node other : Node) (hconfig : node.config = other.config)
    (hschedule : Schedule messages blocks operations)
    (hsame : contents.SameFor .account contents') :
    (registrations (node.history (reliably operations) contents)).map Prod.fst = messages ∧
      registrations (node.history (reliably operations) contents) =
        registrations (other.history (reliably (messages.map (.register {}))) contents') ∧
      (node.after (reliably operations) contents).SameFor .account
        (other.after (reliably (messages.map (.register {}))) contents') := by
  -- Along the schedule the bindings of accounts stay the same as in the run of registrations.
  induction hschedule generalizing contents contents' with
  | nil => exact ⟨rfl, rfl, hsame⟩
  | @register ctx message messages _ operations _ ih =>
    obtain ⟨hfirst, hafter⟩ := exchange_register_congr hconfig hsame ctx {} message
    obtain ⟨hasked, hrest, hlast⟩ := ih hafter
    exact ⟨congrArg (message :: ·) hasked, filterMap_cons_congr hfirst hrest, hlast⟩
  | process _ ih => exact ih (sameFor_exchange (fun _ hmay => nomatch hmay.1) hsame)
  | @other operation _ _ _ hlocal _ ih =>
    cases operation with
    | register | process => exact hlocal.elim
    | _ => exact ih hsame

/-- A node decides on all its blocks, as one that is asked for nothing else. -/
theorem history_decisions (node other : Node) (hconfig : node.config = other.config)
    (hschedule : Schedule messages blocks operations)
    (hsame : contents.SameFor .validator contents') :
    (decisions (node.history (reliably operations) contents)).map Prod.fst = blocks ∧
      decisions (node.history (reliably operations) contents) =
        decisions (other.history (reliably (blocks.map .process)) contents') ∧
      (node.after (reliably operations) contents).SameFor .validator
        (other.after (reliably (blocks.map .process)) contents') := by
  induction hschedule generalizing contents contents' with
  | nil => exact ⟨rfl, rfl, hsame⟩
  | register _ ih => exact ih (sameFor_exchange (fun _ hmay => nomatch hmay) hsame)
  | @process request _ blocks operations _ ih =>
    obtain ⟨hfirst, hafter⟩ := exchange_process_congr hconfig hsame request
    obtain ⟨hasked, hrest, hlast⟩ := ih hafter
    exact ⟨congrArg (request :: ·) hasked, filterMap_cons_congr hfirst hrest, hlast⟩
  | @other operation _ _ _ hlocal _ ih =>
    cases operation with
    | register | process => exact hlocal.elim
    | _ => exact ih hsame

/-- A run leaves alone what stands under keys of no identity. -/
theorem get?_after_of_forall_ne (node : Node) (steps : List (Faults × Operation))
    (contents : Store) {key : Bytes} (h : ∀ identity : Identity, identity.storeKey ≠ key) :
    (node.after steps contents).get? key = contents.get? key := by
  refine after_of_forall_exchange node steps (P := fun store => store.get? key = contents.get? key)
    rfl fun x hx hbefore => ?_
  obtain ⟨store, operation, rfl⟩ := exists_eq_exchange hx
  refine Eq.trans ?_ hbefore
  exact (confined node store operation).get?_eq key fun identity _ => h identity

/-! ## Two replicas -/

/-- Nodes with one configuration, whatever keys they sign with, that start from equal stores which
do not fail and get the same registrations and the same blocks give the same result for each
registration and the same verdict on each block, and their stores are equal in the end, however the
registrations and the blocks are interleaved and whatever else each node is asked. -/
theorem replicas_agree (config : Config) (signingKey otherKey : Option SecretKey)
    (contents : Store) {messages : List RegisterMessage} {blocks : List ProcessRequest}
    {first second : List Operation} (hfirst : Schedule messages blocks first)
    (hsecond : Schedule messages blocks second) :
    let node : Node := ⟨config, signingKey⟩
    let other : Node := ⟨config, otherKey⟩
    let history := node.history (reliably first) contents
    let otherHistory := other.history (reliably second) contents
    (registrations history).map Prod.fst = messages ∧
      registrations history = registrations otherHistory ∧
      (decisions history).map Prod.fst = blocks ∧
      decisions history = decisions otherHistory ∧
      node.after (reliably first) contents = other.after (reliably second) contents := by
  intro node other history otherHistory
  -- Both are compared with the same runs, of the registrations and of the blocks alone.
  obtain ⟨hasked, hresults, haccounts⟩ :=
    history_registrations node node rfl hfirst (.refl .account contents)
  obtain ⟨-, hresults', haccounts'⟩ :=
    history_registrations other node rfl hsecond (.refl .account contents)
  obtain ⟨hdecided, hverdicts, hvalidators⟩ :=
    history_decisions node node rfl hfirst (.refl .validator contents)
  obtain ⟨-, hverdicts', hvalidators'⟩ :=
    history_decisions other node rfl hsecond (.refl .validator contents)
  refine ⟨hasked, hresults.trans hresults'.symm, hdecided, hverdicts.trans hverdicts'.symm, ?_⟩
  refine Store.ext_get? fun key => ?_
  by_cases hkey : ∃ identity : Identity, identity.storeKey = key
  · obtain ⟨identity, rfl⟩ := hkey
    cases identity with
    | account address => exact (haccounts address).trans (haccounts' address).symm
    | validator address => exact (hvalidators address).trans (hvalidators' address).symm
  · have hne := fun identity heq => hkey ⟨identity, heq⟩
    rw [get?_after_of_forall_ne node _ _ hne, get?_after_of_forall_ne other _ _ hne]

/-- A node executes a registration before it gets the block with two first votes. -/
def registeredBefore : List Operation :=
  [.register { height := 1 } firstRegistration, .process firstVotes]

/-- Another node executes it after the block, and is asked for a key and for its vote before. -/
def registeredAfter : List Operation :=
  [.lookup (.validator firstVoter), .process firstVotes, .extend ⟨2, votedHash⟩,
    .register { height := 2 } firstRegistration]

/-- On both nodes the registration succeeds and the block is accepted, and both hold the same keys
afterwards. -/
theorem replicas_agree_first_votes :
    let node : Node := ⟨{}, none⟩
    let history := node.history (reliably registeredBefore) .empty
    let otherHistory := node.history (reliably registeredAfter) .empty
    Schedule [firstRegistration] [firstVotes] registeredBefore ∧
      Schedule [firstRegistration] [firstVotes] registeredAfter ∧
      registrations history = [(firstRegistration, .ok {})] ∧
      registrations otherHistory = [(firstRegistration, .ok {})] ∧
      decisions history = [(firstVotes, .accept)] ∧
      decisions otherHistory = [(firstVotes, .accept)] ∧
      node.after (reliably registeredBefore) .empty =
        node.after (reliably registeredAfter) .empty := by
  intro node history otherHistory
  have hbefore : Schedule [firstRegistration] [firstVotes] registeredBefore :=
    .register (.process .nil)
  have hafter : Schedule [firstRegistration] [firstVotes] registeredAfter :=
    .other trivial (.process (.other trivial (.register .nil)))
  obtain ⟨-, hregistrations, -, hdecisions, hafterwards⟩ :=
    replicas_agree {} none none .empty hbefore hafter
  -- The one node registers on the empty store, and the other one decides on it.
  have hregistered : registrations history = [(firstRegistration, .ok {})] := by
    show registrations (node.exchange (.reliable .empty)
      (.register { height := 1 } firstRegistration) :: _) = _
    rw [show node.exchange (.reliable .empty) (.register { height := 1 } firstRegistration) = _
      from exchange_register_of_value (value_firstRegistration _)]
    rfl
  have hdecided : decisions otherHistory = [(firstVotes, .accept)] := by
    -- Looking a key up has left the store as it was.
    show decisions (_ :: node.exchange (.reliable .empty) (.process firstVotes) :: _) = _
    rw [exchange_process, value_process_reliable, staged_firstVotes_reliable]
    rfl
  exact ⟨hbefore, hafter, hregistered, hregistrations.symm.trans hregistered,
    hdecisions.trans hdecided, hdecided, hafterwards⟩

end Node

end SecondFactor
