import Mathlib.Data.List.TakeWhile
import SecondFactor.Proofs.Announcements
import SecondFactor.Proofs.Proposal.Check

/-!
# Laws of Processing a Proposal

A block is checked first, and then the staged bindings are written in order, up to the first one
that the store refuses. The main statements are `exists_value_learn`, which describes the writing,
and `value_process`, which gives the verdict and the store after processing for every store, every
pattern of failing calls and every request. On a store that does not fail the verdict depends on
the check alone (`process_reliable_eq_accept_iff`).
-/

namespace SecondFactor.Proposal

/-! ## Writing what a block teaches -/

/-- Writing one binding of a lesson: a refusal is reported and leaves the store as it is. -/
theorem value_learn_cons (height : UInt64) (binding : Binding) (rest : List Binding)
    (store : HostStore) :
    ((learn height (binding :: rest)).run.run store).value =
      match store.faults.write binding.identity.storeKey with
      | none =>
        ((learn height rest).run.run
          (store.withContents (store.contents.bind binding))).value
      | some e => (.error (.store e), store) := by
  rw [learn, Update.value_bind, Update.value_tryCatch, Bindings.value_set]
  cases store.faults.write binding.identity.storeKey with
  | none => rfl
  | some e =>
    dsimp only
    rw [Update.value_bind]
    rfl

/-- Writing goes through the bindings in order, up to the first one that the store refuses, and
succeeds exactly if it refuses none. -/
theorem exists_value_learn (height : UInt64) (bindings : List Binding) (store : HostStore) :
    ∃ result, ((learn height bindings).run.run store).value =
        (result, store.withContents (store.contents.bindAll (bindings.takeWhile store.accepts))) ∧
      (result = .ok () ↔ bindings.all store.accepts = true) := by
  induction bindings generalizing store with
  | nil => exact ⟨.ok (), rfl, by simp⟩
  | cons binding rest ih =>
    rw [value_learn_cons]
    cases hwrite : store.faults.write binding.identity.storeKey with
    | none =>
      -- The binding is written, and the rest finds a store with the same faults.
      have haccepts : store.accepts binding = true := by rw [HostStore.accepts, hwrite]; rfl
      obtain ⟨result, hvalue, hresult⟩ := ih (store.withContents (store.contents.bind binding))
      refine ⟨result, ?_, ?_⟩
      · rw [List.takeWhile_cons_of_pos haccepts]
        simpa using hvalue
      · simpa [haccepts] using hresult
    | some e =>
      -- The binding is refused, and the rest is not tried.
      have hrefuses : ¬store.accepts binding = true := by
        rw [HostStore.accepts, hwrite]
        exact Bool.false_ne_true
      refine ⟨.error (.store e), ?_, ?_⟩
      · rw [List.takeWhile_cons_of_neg hrefuses]
        rfl
      · simp [hrefuses]

/-- A block is checked first; then what it teaches is written. -/
theorem value_checkAndLearn (config : Config) (store : HostStore) (request : ProcessRequest) :
    ((checkAndLearn config request).run.run store).value =
      match staged config store request with
      | .error e => (.error e, store)
      | .ok bindings => ((learn request.height bindings).run.run store).value := by
  unfold checkAndLearn staged
  rw [Update.value_bind, Update.run_getThe]
  change ((liftM (validExtensions store request.lastCommit) >>= fun valid =>
    (MonadExcept.ofExcept (check config request.txs valid) >>= _ : Update Unit) :
      Update Unit).run.run store).value = _
  rw [Update.value_bind, Update.run_lift, Logged.value_map]
  cases (validExtensions store request.lastCommit).run.value with
  | error e => rfl
  | ok valid =>
    dsimp only
    rw [Update.value_bind, Update.run_ofExcept]
    cases check config request.txs valid with
    | error e => rfl
    | ok lesson =>
      cases lesson with
      | none => rfl
      | some lesson =>
        change ((learn request.height lesson.bindings >>= _ : Update Unit).run.run store).value = _
        rw [Update.value_bind]
        simp only [taught]
        rcases ((learn request.height lesson.bindings).run.run store).value with ⟨_ | _, _⟩ <;> rfl

/-- The verdict is read off the result of checking and writing. -/
theorem value_process_eq (config : Config) (store : HostStore) (request : ProcessRequest) :
    ((process config request).run store).value =
      match ((checkAndLearn config request).run.run store).value with
      | (.ok (), after) => (.accept, after)
      | (.error _, after) => (.reject, after) := by
  rw [process, StateT.run_bind, Logged.value_bind]
  rcases ((checkAndLearn config request).run.run store).value with ⟨_ | _, _⟩ <;> rfl

/-- The verdict on a block and the store after it: a block that does not pass is rejected and
changes nothing; one that passes is accepted if the store takes every staged binding, and in any
case the bindings before the first refused one are written. -/
theorem value_process (config : Config) (store : HostStore) (request : ProcessRequest) :
    ((process config request).run store).value =
      match staged config store request with
      | .error _ => (.reject, store)
      | .ok bindings =>
        (if bindings.all store.accepts then .accept else .reject,
          store.withContents (store.contents.bindAll (bindings.takeWhile store.accepts))) := by
  rw [value_process_eq, value_checkAndLearn]
  cases staged config store request with
  | error e => rfl
  | ok bindings =>
    obtain ⟨result, hvalue, hresult⟩ := exists_value_learn request.height bindings store
    dsimp only
    rw [hvalue]
    cases result with
    | ok _ => rw [if_pos (hresult.1 rfl)]
    | error e => rw [if_neg (fun hall => by cases hresult.2 hall)]

/-- A block is rejected with an event that tells the error of checking it and writing what it
teaches. -/
theorem events_process (config : Config) (store : HostStore) (request : ProcessRequest) :
    ((process config request).run store).events =
      ((checkAndLearn config request).run.run store).events ++
        match ((checkAndLearn config request).run.run store).value.1 with
        | .ok () => []
        | .error e => [.proposalRejected request.height e] := by
  rw [process, StateT.run_bind, Logged.events_bind]
  rcases ((checkAndLearn config request).run.run store).value with ⟨_ | _, _⟩ <;> rfl

/-! ## What processing announces -/

theorem announcesOnly_learn (height : UInt64) (bindings : List Binding) (store : HostStore) :
    AnnouncesOnly (fun identity => ∃ binding ∈ bindings, binding.identity = identity)
      ((learn height bindings).run.run store) := by
  induction bindings generalizing store with
  | nil => exact .pure _
  | cons binding rest ih =>
    refine Update.announcesOnly_bind ?_ fun _ after _ => ?_
    · refine Update.announcesOnly_tryCatch ?_ fun e after => ?_
      · refine (Bindings.announcesOnly_set binding store).mono fun identity hidentity => ?_
        exact ⟨binding, List.mem_cons_self, hidentity.symm⟩
      · refine Update.announcesOnly_bind (Update.announcesOnly_record ?_ after) fun _ _ _ => .pure _
        exact nofun
    · refine (ih after).mono fun identity hidentity => ?_
      obtain ⟨other, hother, rfl⟩ := hidentity
      exact ⟨other, List.mem_cons_of_mem _ hother, rfl⟩

/-- Processing announces no writes but those of staged bindings. -/
theorem announcesOnly_process (config : Config) (store : HostStore) (request : ProcessRequest) :
    AnnouncesOnly (fun identity => ∃ bindings, staged config store request = .ok bindings ∧
        ∃ binding ∈ bindings, binding.identity = identity)
      ((process config request).run store) := by
  rw [process, StateT.run_bind]
  refine AnnouncesOnly.bind ?_ ?_
  · refine Update.announcesOnly_bind (.pure _) fun before after hbefore => ?_
    rw [Update.run_getThe, Logged.value_pure] at hbefore
    cases hbefore
    refine Update.announcesOnly_bind
      (Update.announcesOnly_lift (announcesOnly_validExtensions store _) store)
      fun valid after hlifted => ?_
    rw [Update.run_lift, Logged.value_map] at hlifted
    obtain ⟨hvalid, rfl⟩ := Prod.mk.inj hlifted
    refine Update.announcesOnly_bind (Update.announcesOnly_ofExcept _ store)
      fun lesson after hchecked => ?_
    rw [Update.run_ofExcept, Logged.value_pure] at hchecked
    obtain ⟨hlesson, rfl⟩ := Prod.mk.inj hchecked
    have hstaged : staged config store request = .ok (taught lesson) := by
      rw [staged, hvalid]
      dsimp only
      rw [hlesson]
    cases lesson with
    | none => exact .pure _
    | some lesson =>
      refine Update.announcesOnly_bind ?_ fun _ after _ => ?_
      · exact (announcesOnly_learn request.height lesson.bindings store).mono
          fun identity hidentity => ⟨lesson.bindings, hstaged, hidentity⟩
      · refine Update.announcesOnly_record ?_ after
        exact nofun
  · rcases ((checkAndLearn config request).run.run store).value with ⟨e | _, after⟩
    · -- A rejection is recorded, and that is all.
      intro identity hmem
      cases List.mem_singleton.1 hmem
    · exact .pure _

/-! ## A store that does not fail -/

/-- A store that does not fail takes every binding, so a block that passes is accepted and all that
it teaches is written. -/
theorem value_process_reliable (config : Config) (contents : Store) (request : ProcessRequest) :
    ((process config request).run (.reliable contents)).value =
      match staged config (.reliable contents) request with
      | .error _ => (.reject, .reliable contents)
      | .ok bindings => (.accept, .reliable (contents.bindAll bindings)) := by
  rw [value_process]
  cases staged config (.reliable contents) request with
  | error e => rfl
  | ok bindings =>
    have haccepts : ∀ binding ∈ bindings, (HostStore.reliable contents).accepts binding = true :=
      fun _ _ => rfl
    dsimp only
    rw [if_pos (List.all_eq_true.2 haccepts), List.takeWhile_eq_self_iff.2 haccepts]
    rfl

/-- On a store that does not fail exactly the blocks that pass are accepted. -/
theorem process_reliable_eq_accept_iff (config : Config) {contents : Store}
    {request : ProcessRequest} {valid : List ValidExtension}
    (hvalid : (validExtensions (.reliable contents) request.lastCommit).run.value = .ok valid) :
    ((process config request).run (.reliable contents)).value.1 = .accept ↔
      ∃ used, Passes config valid request.txs used := by
  have hpasses : (∃ bindings, staged config (.reliable contents) request = .ok bindings) ↔
      ∃ used, Passes config valid request.txs used := by
    constructor
    · rintro ⟨bindings, hstaged⟩
      obtain ⟨_, used, heq, hpasses, -⟩ := staged_eq_ok_iff.1 hstaged
      obtain rfl := Except.ok.inj (hvalid.symm.trans heq)
      exact ⟨used, hpasses⟩
    · rintro ⟨used, hpasses⟩
      exact ⟨_, staged_eq_ok_iff.2 ⟨valid, used, hvalid, hpasses, rfl⟩⟩
  rw [← hpasses, value_process_reliable]
  cases staged config (.reliable contents) request <;> simp

end SecondFactor.Proposal
