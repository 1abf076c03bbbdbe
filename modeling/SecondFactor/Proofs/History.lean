import SecondFactor.Proofs.Node

/-!
# Histories

The history of a run puts together what a node was asked, what it answered, and the contents of the
store around each step. It is made of the steps of the run (`map_reply_history`,
`map_operation_history`), and any point in it divides the run (`exists_steps_of_history_eq`,
`exists_operations_of_history_eq`), so a statement about what came before and after an exchange is
one about a run in two parts.
-/

namespace SecondFactor

/-- One step of a run as seen from outside. -/
structure Exchange where
  /-- What the node was asked. -/
  operation : Operation
  /-- What it answered. -/
  reply : Reply
  /-- The contents of the store before the step. -/
  before : Store
  /-- The contents of the store after it. -/
  after : Store

namespace Node

/-- The exchange in which an operation is answered. -/
def exchange (node : Node) (store : HostStore) (operation : Operation) : Exchange :=
  let result := (node.perform operation store).value
  ⟨operation, result.1, store.contents, result.2.contents⟩

theorem exchange_register (node : Node) (store : HostStore) (ctx : BlockContext)
    (message : RegisterMessage) :
    node.exchange store (.register ctx message) =
      let result := ((Registration.execute node.config ctx message).run.run store).value
      ⟨.register ctx message, .registered result.1, store.contents, result.2.contents⟩ := rfl

theorem exchange_register_of_value {node : Node} {store after : HostStore} {ctx : BlockContext}
    {message : RegisterMessage} {result : Except Error RegisterReply}
    (h : ((Registration.execute node.config ctx message).run.run store).value = (result, after)) :
    node.exchange store (.register ctx message) =
      ⟨.register ctx message, .registered result, store.contents, after.contents⟩ := by
  rw [exchange_register, h]

theorem exchange_process (node : Node) (store : HostStore) (request : ProcessRequest) :
    node.exchange store (.process request) =
      let result := ((Proposal.process node.config request).run store).value
      ⟨.process request, .processed result.1, store.contents, result.2.contents⟩ := rfl

/-- The exchanges of a run, in order. -/
def history (node : Node) : List (Faults × Operation) → Store → List Exchange
  | [], _ => []
  | (faults, operation) :: rest, contents =>
    let first := node.exchange ⟨contents, faults⟩ operation
    first :: history node rest first.after

/-- Operations on a store that does not fail. -/
def reliably (operations : List Operation) : List (Faults × Operation) :=
  operations.map fun operation => (.none, operation)

@[simp] theorem history_nil (node : Node) (contents : Store) : node.history [] contents = [] := rfl

theorem history_cons (node : Node) (faults : Faults) (operation : Operation)
    (rest : List (Faults × Operation)) (contents : Store) :
    node.history ((faults, operation) :: rest) contents =
      node.exchange ⟨contents, faults⟩ operation ::
        node.history rest (node.exchange ⟨contents, faults⟩ operation).after := rfl

/-- A run goes on with what its first exchange leaves. -/
theorem after_cons_exchange (node : Node) (faults : Faults) (operation : Operation)
    (rest : List (Faults × Operation)) (contents : Store) :
    node.after ((faults, operation) :: rest) contents =
      node.after rest (node.exchange ⟨contents, faults⟩ operation).after := rfl

/-- The answers in a history are those of the run. -/
theorem map_reply_history (node : Node) (steps : List (Faults × Operation)) (contents : Store) :
    (node.history steps contents).map Exchange.reply = ((node.run steps).run contents).value.1 := by
  induction steps generalizing contents with
  | nil => rfl
  | cons step rest ih =>
    obtain ⟨faults, operation⟩ := step
    rw [history_cons, List.map_cons, ih]
    rfl

/-- The operations in a history are those of the run. -/
theorem map_operation_history (node : Node) (steps : List (Faults × Operation))
    (contents : Store) :
    (node.history steps contents).map Exchange.operation = steps.map Prod.snd := by
  induction steps generalizing contents with
  | nil => rfl
  | cons step rest ih =>
    obtain ⟨faults, operation⟩ := step
    rw [history_cons, List.map_cons, List.map_cons, ih]
    rfl

/-- An exchange in a history divides the steps of the run. -/
theorem exists_steps_of_history_eq {node : Node} {steps : List (Faults × Operation)}
    {contents : Store} {earlier later : List Exchange} {x : Exchange}
    (h : node.history steps contents = earlier ++ x :: later) :
    ∃ past faults operation future, steps = past ++ (faults, operation) :: future ∧
      node.history past contents = earlier ∧
      node.exchange ⟨node.after past contents, faults⟩ operation = x ∧
      node.history future x.after = later := by
  induction steps generalizing contents earlier with
  | nil =>
    rw [history_nil] at h
    exact absurd h.symm (by simp)
  | cons step rest ih =>
    obtain ⟨faults, operation⟩ := step
    rw [history_cons] at h
    cases earlier with
    | nil =>
      obtain ⟨rfl, hlater⟩ := List.cons.inj h
      exact ⟨[], faults, operation, rest, rfl, rfl, rfl, hlater⟩
    | cons first earlier =>
      obtain ⟨rfl, hrest⟩ := List.cons.inj h
      obtain ⟨past, faults', operation', future, rfl, hpast, hx, hfuture⟩ := ih hrest
      refine ⟨(faults, operation) :: past, faults', operation', future, rfl, ?_, hx, hfuture⟩
      rw [history_cons, hpast]

/-- On a store that does not fail an exchange in a history divides the operations of the run. -/
theorem exists_operations_of_history_eq {node : Node} {operations : List Operation}
    {contents : Store} {earlier later : List Exchange} {x : Exchange}
    (h : node.history (reliably operations) contents = earlier ++ x :: later) :
    ∃ past operation future, operations = past ++ operation :: future ∧
      node.history (reliably past) contents = earlier ∧
      node.exchange (.reliable (node.after (reliably past) contents)) operation = x ∧
      node.history (reliably future) x.after = later := by
  obtain ⟨past, faults, operation, future, hsteps, hpast, hx, hfuture⟩ :=
    exists_steps_of_history_eq h
  obtain ⟨past, rest, rfl, rfl, hrest⟩ := List.map_eq_append_iff.1 hsteps
  obtain ⟨operation, future, rfl, hstep, rfl⟩ := List.map_eq_cons_iff.1 hrest
  obtain ⟨rfl, rfl⟩ := Prod.mk.inj hstep
  exact ⟨past, operation, future, rfl, hpast, hx, hfuture⟩

/-! ## Changes along a history -/

/-- Every exchange of a history is one of the node. -/
theorem exists_eq_exchange {node : Node} {steps : List (Faults × Operation)} {contents : Store}
    {x : Exchange} (h : x ∈ node.history steps contents) :
    ∃ store operation, x = node.exchange store operation := by
  obtain ⟨earlier, later, hhistory⟩ := List.append_of_mem h
  obtain ⟨past, faults, operation, -, -, -, rfl, -⟩ := exists_steps_of_history_eq hhistory
  exact ⟨_, operation, rfl⟩

/-- What every exchange of a run keeps is kept by the run. -/
theorem after_of_forall_exchange {P : Store → Prop} (node : Node)
    (steps : List (Faults × Operation)) {contents : Store} (hstart : P contents)
    (hkeep : ∀ x ∈ node.history steps contents, P x.before → P x.after) :
    P (node.after steps contents) := by
  induction steps generalizing contents with
  | nil => exact hstart
  | cons step rest ih =>
    obtain ⟨faults, operation⟩ := step
    rw [history_cons] at hkeep
    obtain ⟨hfirst, hrest⟩ := List.forall_mem_cons.1 hkeep
    rw [after_cons_exchange]
    exact ih (hfirst hstart) hrest

/-- Either no exchange of a run changes what is found under a key, or there is a last one that does,
and what it leaves there is found after the run. -/
theorem exists_last_change (node : Node) (steps : List (Faults × Operation)) (contents : Store)
    (key : Bytes) :
    ((∀ x ∈ node.history steps contents, x.after.get? key = x.before.get? key) ∧
        (node.after steps contents).get? key = contents.get? key) ∨
      ∃ earlier x later, node.history steps contents = earlier ++ x :: later ∧
        x.after.get? key ≠ x.before.get? key ∧
        (∀ y ∈ later, y.after.get? key = y.before.get? key) ∧
        (node.after steps contents).get? key = x.after.get? key := by
  induction steps generalizing contents with
  | nil => exact .inl ⟨fun x hx => absurd hx List.not_mem_nil, rfl⟩
  | cons step rest ih =>
    obtain ⟨faults, operation⟩ := step
    rw [history_cons, after_cons_exchange]
    rcases ih (node.exchange ⟨contents, faults⟩ operation).after with
      ⟨hrest, hlast⟩ | ⟨earlier, x, later, hhistory, hchange, hlater, hlast⟩
    · -- Nothing is changed behind the first exchange, so it is the last one to change anything.
      by_cases hfirst : (node.exchange ⟨contents, faults⟩ operation).after.get? key =
          contents.get? key
      · exact .inl ⟨List.forall_mem_cons.2 ⟨hfirst, hrest⟩, hlast.trans hfirst⟩
      · exact .inr ⟨[], _, _, rfl, hfirst, hrest, hlast⟩
    · exact .inr ⟨_ :: earlier, x, later, congrArg (_ :: ·) hhistory, hchange, hlater, hlast⟩

end Node

/-! ## Registrations in a history -/

/-- A registration that succeeded: its message declares a key for an account. -/
structure Exchange.Registers (config : Config) (x : Exchange) (account : Address) (key : Bytes) :
    Prop where
  /-- The node was asked to register and did. -/
  exists_message : ∃ ctx message envelope, x.operation = .register ctx message ∧
    x.reply = .registered (.ok {}) ∧ message.sender = account ∧
    Envelope.decode (Registration.body config message) = .ok envelope ∧ envelope.publicKey = key

namespace Node

variable {node : Node} {store : HostStore} {operation : Operation} {account : Address}
  {key : Bytes}

/-- A registration succeeds only if its message has proved a key, which is bound afterwards. -/
theorem exists_proved_of_reply {ctx : BlockContext} {message : RegisterMessage}
    {reply : RegisterReply}
    (h : (node.exchange store (.register ctx message)).reply = .registered (.ok reply)) :
    ∃ envelope, Registration.proved node.config message = .ok envelope ∧
      (node.exchange store (.register ctx message)).after.get?
        (Identity.account message.sender).storeKey = some envelope.publicKey := by
  rw [exchange_register] at h ⊢
  rcases Registration.execute_fails_or_binds node.config ctx message store with
    ⟨e, hvalue⟩ | ⟨envelope, after, hproved, hvalue, hbound, -⟩
  · rw [hvalue] at h
    cases h
  · rw [hvalue]
    exact ⟨envelope, hproved, hbound⟩

/-- After a registration that succeeded its key is bound to the account. -/
theorem get?_after_of_registers
    (h : (node.exchange store operation).Registers node.config account key) :
    (node.exchange store operation).after.get? (Identity.account account).storeKey =
      some key := by
  obtain ⟨ctx, message, envelope, hoperation, hreply, rfl, hdecode, rfl⟩ := h.exists_message
  obtain rfl : operation = .register ctx message := hoperation
  obtain ⟨proved, hproved, hbound⟩ := exists_proved_of_reply hreply
  -- The key that was proved is the one that the envelope declares.
  obtain ⟨hdecode', -, -⟩ := Registration.proved_eq_ok_iff.1 hproved
  obtain rfl := Except.ok.inj (hdecode.symm.trans hdecode')
  exact hbound

/-- What is bound to an account changes only in a registration of this account that succeeds. -/
theorem registers_of_get?_ne
    (h : (node.exchange store operation).after.get? (Identity.account account).storeKey ≠
      store.contents.get? (Identity.account account).storeKey) :
    ∃ key, (node.exchange store operation).Registers node.config account key := by
  cases operation with
  | register ctx message =>
    rw [exchange_register] at h ⊢
    rcases Registration.execute_fails_or_binds node.config ctx message store with
      ⟨e, hvalue⟩ | ⟨envelope, after, hproved, hvalue, -, hafter⟩
    · rw [hvalue] at h
      exact absurd rfl h
    · rw [hvalue] at h ⊢
      obtain ⟨hdecode, -, -⟩ := Registration.proved_eq_ok_iff.1 hproved
      have hsender : message.sender = account := by
        by_contra hne
        rcases hafter with rfl | rfl
        · exact h rfl
        · refine h (Store.get?_bind_of_ne _ fun heq => hne ?_)
          exact Identity.account.inj (Identity.storeKey_injective heq)
      exact ⟨_, ⟨ctx, message, envelope, rfl, rfl, hsender, hdecode, rfl⟩⟩
  | process request =>
    -- A block writes bindings of validators only.
    refine absurd ((confined node store (.process request)).get?_eq _ ?_) h
    rintro identity ⟨⟨entry, -, rfl⟩, -⟩ heq
    cases Identity.storeKey_injective heq
  | authenticate | extend | verify | prepare | lookup => exact absurd rfl h

end Node

end SecondFactor
