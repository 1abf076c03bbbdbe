import SecondFactor.Node
import SecondFactor.Proofs.Proposal.Process
import SecondFactor.Proofs.Registration

/-!
# Bindings over a Run

What happens to the bindings while a node serves its host, whatever the operations are and whichever
calls to the store fail. One operation writes nothing, or the key of the account that registers, or
some staged bindings of a block (`Writes`, `exists_writes`). Each of these has been read as missing
before, unless the account registers again and the last key wins. From this follows what one step
keeps, and by induction what a run keeps. The main statement is `run_keeps_bindings`.
-/

namespace SecondFactor

/-! ## What an operation may write -/

namespace Operation

/-- An operation may write the binding of an identity: a registration that of its sender, and a
block those of the validators that it lists and that have none. -/
def MayWrite (contents : Store) : Operation → Identity → Prop
  | .register _ message, identity => identity = .account message.sender
  | .process request, identity =>
    (∃ entry ∈ Proposal.listed request.txs, identity = .validator entry.validator) ∧
      contents.get? identity.storeKey = none
  | _, _ => False

/-- An operation may replace the binding of an identity: if the last key wins a registration may
replace that of its sender. -/
def MayReplace (policy : RebindPolicy) (operation : Operation) (identity : Identity) : Prop :=
  policy = .lastWriteWins ∧
    ∃ ctx message, operation = .register ctx message ∧ identity = .account message.sender

end Operation

namespace Node

/-- `Writes node store operation written`: an operation can lead to the bindings in `written` being
written to the store. -/
inductive Writes (node : Node) (store : HostStore) : Operation → List Binding → Prop
  /-- Any operation can leave the store as it is. -/
  | nothing {operation} : Writes node store operation []
  /-- A registration writes a key for its sender as the policy admits it. -/
  | register {ctx message key}
      (hadmits : store.contents.get? (Identity.account message.sender).storeKey = none ∨
        node.config.rebindPolicy = .lastWriteWins) :
      Writes node store (.register ctx message) [⟨.account message.sender, key⟩]
  /-- A block writes staged bindings, up to the first one that the store refuses. -/
  | process {request bindings}
      (hstaged : Proposal.staged node.config store request = .ok bindings) :
      Writes node store (.process request) (bindings.takeWhile store.accepts)

/-- Each operation writes bindings in one of these ways and leaves the rest of the store alone. -/
theorem exists_writes (node : Node) (store : HostStore) (operation : Operation) :
    ∃ written, Writes node store operation written ∧
      (node.perform operation store).value.2 =
        store.withContents (store.contents.bindAll written) := by
  cases operation with
  | register ctx message =>
    rcases Registration.execute_cases node.config ctx message store with
      hsame | ⟨key, hwritten, hadmits⟩
    · exact ⟨[], .nothing, hsame⟩
    · exact ⟨_, .register hadmits, hwritten⟩
  | process request =>
    have hvalue := Proposal.value_process node.config store request
    cases hstaged : Proposal.staged node.config store request with
    | error e =>
      rw [hstaged] at hvalue
      exact ⟨[], .nothing, congrArg Prod.snd hvalue⟩
    | ok bindings =>
      rw [hstaged] at hvalue
      exact ⟨_, .process hstaged, congrArg Prod.snd hvalue⟩
  -- The other operations have no way to write.
  | authenticate | extend | verify | prepare | lookup => exact ⟨[], .nothing, rfl⟩

variable {node : Node} {store : HostStore} {operation : Operation} {written : List Binding}

namespace Writes

/-- Only bindings that an operation may write are written. -/
theorem mayWrite (h : Writes node store operation written) {binding : Binding}
    (hmem : binding ∈ written) : operation.MayWrite store.contents binding.identity := by
  cases h with
  | nothing => cases hmem
  | register hadmits =>
    obtain rfl := List.mem_singleton.1 hmem
    rfl
  | process hstaged =>
    obtain ⟨vote, signature, hbinding⟩ :=
      Proposal.staged_of_mem hstaged (List.takeWhile_subset _ hmem)
    exact ⟨⟨_, hbinding.mem_listed, hbinding.identity_eq⟩,
      (Bindings.get_eq_ok_iff.1 hbinding.get_eq).2⟩

/-- Only bindings that were missing or that an operation may replace are written. -/
theorem eq_none_or_mayReplace (h : Writes node store operation written) {binding : Binding}
    (hmem : binding ∈ written) :
    store.contents.get? binding.identity.storeKey = none ∨
      operation.MayReplace node.config.rebindPolicy binding.identity := by
  cases h with
  | nothing => cases hmem
  | register hadmits =>
    obtain rfl := List.mem_singleton.1 hmem
    exact hadmits.imp_right fun hpolicy => ⟨hpolicy, _, _, rfl, rfl⟩
  | process hstaged => exact .inl (mayWrite (.process hstaged) hmem).2

end Writes

/-- What an operation does to the bindings: it changes and announces to change only those that it
may write. -/
structure Confined (node : Node) (store : HostStore) (operation : Operation) : Prop where
  /-- The value of a key changes only if it is the key of an identity whose binding may be
  written. -/
  get?_eq : ∀ key, (∀ identity, operation.MayWrite store.contents identity →
      identity.storeKey ≠ key) →
    (node.perform operation store).value.2.contents.get? key = store.contents.get? key
  /-- An operation that may write nothing leaves the contents as they are. -/
  contents_eq : (∀ identity, ¬operation.MayWrite store.contents identity) →
    (node.perform operation store).value.2.contents = store.contents
  /-- No write is announced but of a binding that may be written. -/
  announcesOnly : AnnouncesOnly (operation.MayWrite store.contents) (node.perform operation store)

/-- Each operation announces only writes that it may make. -/
theorem announcesOnly_perform (node : Node) (store : HostStore) (operation : Operation) :
    AnnouncesOnly (operation.MayWrite store.contents) (node.perform operation store) := by
  cases operation with
  | register ctx message =>
    exact .bind (Registration.announcesOnly_execute node.config ctx message store) (.pure _)
  | authenticate ctx tx simulate =>
    exact .bind (Authentication.announcesOnly_authenticate _ _ _ _ _) (.pure _)
  | extend request => exact .bind (Voting.announcesOnly_extend _ _ _) (.pure _)
  | verify request => exact .bind (Voting.announcesOnly_verify _ _ _) (.pure _)
  | prepare request => exact .bind (Proposal.announcesOnly_prepare _ _ _) (.pure _)
  | process request =>
    refine .bind ((Proposal.announcesOnly_process node.config store request).mono ?_) (.pure _)
    -- What is announced is staged, and that has been found listed and missing.
    rintro identity ⟨bindings, hstaged, binding, hbinding, rfl⟩
    obtain ⟨vote, signature, hstaged⟩ := Proposal.staged_of_mem hstaged hbinding
    exact ⟨⟨_, hstaged.mem_listed, hstaged.identity_eq⟩,
      (Bindings.get_eq_ok_iff.1 hstaged.get_eq).2⟩
  | lookup identity => exact .pure _

/-- Every operation keeps to what it may write. -/
theorem confined (node : Node) (store : HostStore) (operation : Operation) :
    Confined node store operation := by
  obtain ⟨written, hwrites, hafter⟩ := exists_writes node store operation
  refine ⟨fun key hkey => ?_, fun hnone => ?_, announcesOnly_perform node store operation⟩
  · rw [hafter]
    refine Store.get?_bindAll_of_forall_ne _ fun binding hbinding => ?_
    exact hkey _ (hwrites.mayWrite hbinding)
  · have hnil : written = [] :=
      List.eq_nil_iff_forall_not_mem.2 fun binding hbinding =>
        hnone _ (hwrites.mayWrite hbinding)
    rw [hafter, hnil]
    rfl

/-! ## What a run keeps -/

/-- The contents of the store after a run. -/
def after (node : Node) (steps : List (Faults × Operation)) (contents : Store) : Store :=
  ((node.run steps).run contents).value.2

@[simp] theorem after_nil (node : Node) (contents : Store) : node.after [] contents = contents :=
  rfl

/-- A run goes on with the contents that its first step leaves. -/
theorem after_cons (node : Node) (faults : Faults) (operation : Operation)
    (rest : List (Faults × Operation)) (contents : Store) :
    node.after ((faults, operation) :: rest) contents =
      node.after rest (node.perform operation ⟨contents, faults⟩).value.2.contents := rfl

/-- A run in two parts. -/
theorem after_append (node : Node) (past future : List (Faults × Operation)) (contents : Store) :
    node.after (past ++ future) contents = node.after future (node.after past contents) := by
  induction past generalizing contents with
  | nil => rfl
  | cons step rest ih =>
    obtain ⟨faults, operation⟩ := step
    rw [List.cons_append, after_cons, after_cons, ih]

/-- No step takes a binding away. -/
theorem isSome_get?_perform {key : Bytes} (h : (store.contents.get? key).isSome) :
    ((node.perform operation store).value.2.contents.get? key).isSome := by
  obtain ⟨written, -, hafter⟩ := exists_writes node store operation
  rw [hafter]
  exact Store.isSome_get?_bindAll written h

/-- A step keeps the bindings that it may not replace. -/
theorem get?_perform_of_eq_some {identity : Identity} {key : Bytes}
    (h : store.contents.get? identity.storeKey = some key)
    (hreplace : ¬operation.MayReplace node.config.rebindPolicy identity) :
    (node.perform operation store).value.2.contents.get? identity.storeKey = some key := by
  obtain ⟨written, hwrites, hafter⟩ := exists_writes node store operation
  rw [hafter, HostStore.contents_withContents, ← h]
  refine Store.get?_bindAll_of_forall_ne _ fun binding hbinding heq => ?_
  -- What is written was missing or may be replaced, and this binding neither was nor may be.
  obtain rfl := Identity.storeKey_injective heq
  rcases hwrites.eq_none_or_mayReplace hbinding with hnone | hmay
  · rw [h] at hnone
    cases hnone
  · exact hreplace hmay

/-- No run takes a binding away. -/
theorem isSome_get?_after (node : Node) (steps : List (Faults × Operation)) {contents : Store}
    {key : Bytes} (h : (contents.get? key).isSome) :
    ((node.after steps contents).get? key).isSome := by
  induction steps generalizing contents with
  | nil => exact h
  | cons step rest ih =>
    obtain ⟨faults, operation⟩ := step
    rw [after_cons]
    exact ih (isSome_get?_perform h)

/-- A run keeps the bindings that none of its operations may replace. -/
theorem get?_after_of_eq_some (node : Node) (steps : List (Faults × Operation)) {contents : Store}
    {identity : Identity} {key : Bytes} (h : contents.get? identity.storeKey = some key)
    (hreplace : ∀ step ∈ steps, ¬step.2.MayReplace node.config.rebindPolicy identity) :
    (node.after steps contents).get? identity.storeKey = some key := by
  induction steps generalizing contents with
  | nil => exact h
  | cons step rest ih =>
    obtain ⟨faults, operation⟩ := step
    obtain ⟨hhead, hrest⟩ := List.forall_mem_cons.1 hreplace
    rw [after_cons]
    exact ih (get?_perform_of_eq_some h hhead) hrest

/-- Over every run from the empty store, with any calls to the store failing in any step: no binding
is taken away; that of a validator keeps its key, and so does that of an account if the first key
wins; in any case that of an account changes only while the account registers. Every further
operation keeps to what it may write. -/
theorem run_keeps_bindings (node : Node) (past future : List (Faults × Operation)) :
    (∀ key, ((node.after past .empty).get? key).isSome →
      ((node.after (past ++ future) .empty).get? key).isSome) ∧
    (∀ validator key,
      (node.after past .empty).get? (Identity.validator validator).storeKey = some key →
      (node.after (past ++ future) .empty).get? (Identity.validator validator).storeKey =
        some key) ∧
    (node.config.rebindPolicy = .firstWriteWins → ∀ account key,
      (node.after past .empty).get? (Identity.account account).storeKey = some key →
      (node.after (past ++ future) .empty).get? (Identity.account account).storeKey = some key) ∧
    (∀ account key,
      (node.after past .empty).get? (Identity.account account).storeKey = some key →
      (node.after (past ++ future) .empty).get? (Identity.account account).storeKey ≠ some key →
      ∃ step ∈ future, ∃ ctx message,
        step.2 = .register ctx message ∧ message.sender = account) ∧
    (∀ faults operation, Confined node ⟨node.after past .empty, faults⟩ operation) := by
  rw [after_append]
  refine ⟨fun key h => ?_, fun validator key h => ?_, fun hpolicy account key h => ?_,
    fun account key h hchanged => ?_, fun faults operation => confined _ _ _⟩
  · exact isSome_get?_after node future h
  · -- A registration is of an account and never of a validator.
    refine get?_after_of_eq_some node future h ?_
    rintro step - ⟨-, ctx, message, -, hidentity⟩
    cases hidentity
  · refine get?_after_of_eq_some node future h ?_
    rintro step - ⟨hlast, -⟩
    rw [hpolicy] at hlast
    cases hlast
  · by_contra hnever
    refine hchanged (get?_after_of_eq_some node future h ?_)
    rintro step hstep ⟨-, ctx, message, hregister, hidentity⟩
    exact hnever ⟨step, hstep, ctx, message, hregister, (Identity.account.inj hidentity).symm⟩

end Node

end SecondFactor
