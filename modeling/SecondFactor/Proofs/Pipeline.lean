import SecondFactor.Pipeline

/-!
# The Second Factor in a Pipeline

A pipeline that is put together of two parts is run by running the first part and then, unless it
has rejected the transaction, the second one in the context that the first has passed on
(`run_append`). Since the stage that checks the second factor passes its context on as it is
(`run_secondarySignature`), it can be put anywhere into a pipeline: if it lets a transaction pass,
the pipeline gives what it would give without the stage.

## Main definitions

* `Passage.resume`: a passage that goes on through further stages.

## Main results

* `secondFactor_transparent`: what becomes of a transaction in a pipeline with the stage, in terms
  of the stages before it, the authentication and the pipeline without it.
-/

namespace SecondFactor.Pipeline

open Authentication (authenticate)

variable {ctx : BlockContext} {tx : Transaction} {simulate : Bool}

/-! ## Parts of a pipeline -/

namespace Passage

/-- A passage that comes after some stages have been entered. -/
def behind (entered : List String) (later : Passage) : Passage :=
  ⟨entered ++ later.entered, later.result⟩

/-- A passage goes on in the context that the last stage has passed on, unless a stage has rejected
the transaction. -/
def resume (passage : Passage) (next : BlockContext → Logged Passage) : Logged Passage :=
  match passage.result with
  | .error _ => pure passage
  | .ok ctx => behind passage.entered <$> next ctx

theorem behind_nil (passage : Passage) : behind [] passage = passage := rfl

theorem behind_append (entered more : List String) (passage : Passage) :
    behind (entered ++ more) passage = behind entered (behind more passage) := by
  simp [behind]

/-- The stages that were entered first come first, however the passage goes on. -/
theorem resume_behind (entered : List String) (passage : Passage)
    (next : BlockContext → Logged Passage) :
    (behind entered passage).resume next = behind entered <$> passage.resume next := by
  obtain ⟨more, result⟩ := passage
  cases result with
  | error rejection => rfl
  | ok ctx =>
    change behind (entered ++ more) <$> next ctx = behind entered <$> behind more <$> next ctx
    rw [Functor.map_map]
    exact congrArg (· <$> next ctx) (funext (behind_append entered more))

end Passage

open Passage (behind)

/-- The first stage is entered, and those behind it in the context that it passes on. -/
theorem run_cons (stage : Stage) (rest : Pipeline) :
    run ctx tx simulate (stage :: rest) =
      ((stage.handle ctx tx simulate).run >>= fun result =>
        match result with
        | .ok ctx => behind [stage.name] <$> run ctx tx simulate rest
        | .error rejection => do
          record (.stageRejected stage.name rejection.code)
          return ⟨[stage.name], .error rejection⟩) := rfl

/-- Two parts of a pipeline are run one after the other. -/
theorem run_append (before after : Pipeline) :
    run ctx tx simulate (before ++ after) =
      (run ctx tx simulate before >>= fun passage =>
        passage.resume fun ctx => run ctx tx simulate after) := by
  induction before generalizing ctx with
  | nil =>
    change run ctx tx simulate after = behind [] <$> run ctx tx simulate after
    rw [funext Passage.behind_nil, id_map']
  | cons stage rest ih =>
    rw [List.cons_append, run_cons, run_cons, bind_assoc]
    -- Once the first stage has handled the transaction both sides go on from the same result.
    refine bind_congr fun result => ?_
    cases result with
    | error rejection => rfl
    | ok ctx =>
      simp only [ih, map_bind, bind_map_left, Passage.resume_behind]

/-- Where the first part has rejected a transaction, the second one is not run. -/
theorem run_append_of_rejected {before : Pipeline} {rejection : Rejection}
    (h : (run ctx tx simulate before).value.result = .error rejection) (after : Pipeline) :
    run ctx tx simulate (before ++ after) = run ctx tx simulate before := by
  have hresume : (run ctx tx simulate before).value.resume
      (fun ctx => run ctx tx simulate after) = pure (run ctx tx simulate before).value := by
    rw [Passage.resume, h]
  rw [run_append]
  ext1
  · rw [Logged.value_bind, hresume, Logged.value_pure]
  · rw [Logged.events_bind, hresume, Logged.events_pure, List.append_nil]

/-- Where the first part has passed a context on, the second one decides. -/
theorem value_run_append_of_passed {before : Pipeline} {passed : BlockContext}
    (h : (run ctx tx simulate before).value.result = .ok passed) (after : Pipeline) :
    (run ctx tx simulate (before ++ after)).value =
      behind (run ctx tx simulate before).value.entered (run passed tx simulate after).value := by
  rw [run_append, Logged.value_bind, Passage.resume, h]
  rfl

/-! ## The stage that checks the second factor -/

/-- The stage passes its context on if the transaction is authenticated, and else it rejects the
transaction for the error. -/
theorem run_handle_secondarySignature (config : Config) (store : HostStore) :
    ((Stage.secondarySignature config store).handle ctx tx simulate).run =
      (fun result => match result with
        | .ok _ => .ok ctx
        | .error e => .error (.secondFactor e)) <$>
      (authenticate config store ctx tx simulate).run := by
  change Except.mapError Rejection.secondFactor <$>
    (authenticate config store ctx tx simulate >>= fun _ => pure ctx : Attempt BlockContext).run = _
  -- Returning the context behind the authentication adds neither an error nor an event.
  ext1
  · rw [Logged.value_map, Logged.value_map, Attempt.value_bind]
    cases (authenticate config store ctx tx simulate).run.value <;> rfl
  · rw [Logged.events_map, Logged.events_map, Attempt.events_bind]
    cases (authenticate config store ctx tx simulate).run.value <;> exact List.append_nil _

/-- The stage is entered in any context. If the transaction is authenticated the stages behind it
are entered in the same one. -/
theorem run_secondarySignature (config : Config) (store : HostStore) (rest : Pipeline) :
    run ctx tx simulate (.secondarySignature config store :: rest) =
      ((authenticate config store ctx tx simulate).run >>= fun result =>
        match result with
        | .ok _ => behind ["secondary_signature"] <$> run ctx tx simulate rest
        | .error e => do
          record (.stageRejected "secondary_signature" e.code)
          return ⟨["secondary_signature"], .error (.secondFactor e)⟩) := by
  rw [run_cons, run_handle_secondarySignature, bind_map_left]
  refine bind_congr fun result => ?_
  cases result <;> rfl

/-- What becomes of a transaction at the stage and behind it, without the events. -/
theorem value_run_secondarySignature (config : Config) (store : HostStore) (rest : Pipeline) :
    (run ctx tx simulate (.secondarySignature config store :: rest)).value =
      match (authenticate config store ctx tx simulate).run.value with
      | .ok _ => behind ["secondary_signature"] (run ctx tx simulate rest).value
      | .error e => ⟨["secondary_signature"], .error (.secondFactor e)⟩ := by
  rw [run_secondarySignature, Logged.value_bind]
  cases (authenticate config store ctx tx simulate).run.value <;> rfl

/-! ## Stages of the host -/

/-- A stage that the host brings: a name and an arbitrary function. -/
structure HostStage where
  /-- The name of the stage in events. -/
  name : String
  /-- The context to go on with, or the rejection. -/
  handle : BlockContext → Transaction → Bool → Except Rejection BlockContext

/-- The stage in a pipeline. -/
def HostStage.stage (host : HostStage) : Stage :=
  .host host.name host.handle

/-- Stages of the host do in a pipeline what their functions do one after the other, up to the first
that rejects the transaction. -/
theorem result_run_hosts (hosts : List HostStage) :
    (run ctx tx simulate (hosts.map HostStage.stage)).value.result =
      hosts.foldlM (fun ctx host => host.handle ctx tx simulate) ctx := by
  induction hosts generalizing ctx with
  | nil => rfl
  | cons host rest ih =>
    have hhandle : (host.stage.handle ctx tx simulate).run =
        pure (host.handle ctx tx simulate) := by
      change (MonadExcept.ofExcept (host.handle ctx tx simulate) :
        ExceptT Rejection Logged BlockContext).run = _
      cases host.handle ctx tx simulate <;> rfl
    rw [List.map_cons, run_cons, hhandle, pure_bind, List.foldlM_cons]
    cases host.handle ctx tx simulate with
    | error rejection => rfl
    | ok ctx => exact ih

/-! ## The pipeline around the stage -/

/-- For all stages before and after the stage that checks the second factor: if one before it
rejects the transaction, that is the outcome, and no other stage is entered. Else the transaction is
authenticated in the context that they have passed on. If that fails it is rejected for this very
error, and nothing depends on the stages after it, none of which is entered. If it does not fail the
outcome is that of the pipeline without the stage. Stages of the host are arbitrary functions, which
a pipeline of them calls one after the other. -/
theorem secondFactor_transparent (config : Config) (store : HostStore) (tx : Transaction)
    (simulate : Bool) :
    (∀ (before after : Pipeline) (ctx : BlockContext),
      let first := run ctx tx simulate before
      let whole := run ctx tx simulate (before ++ .secondarySignature config store :: after)
      match first.value.result with
      | .error rejection => whole.value.result = .error rejection ∧ whole = first
      | .ok passed =>
        match (authenticate config store passed tx simulate).run.value with
        | .error e =>
          whole.value.result = .error (.secondFactor e) ∧
            (Rejection.secondFactor e).code = e.code ∧
            whole.value.entered = first.value.entered ++ ["secondary_signature"] ∧
            whole = run ctx tx simulate (before ++ [.secondarySignature config store])
        | .ok _ => whole.value.result = (run ctx tx simulate (before ++ after)).value.result) ∧
    ∀ (hosts : List HostStage) (ctx : BlockContext),
      (run ctx tx simulate (hosts.map HostStage.stage)).value.result =
        hosts.foldlM (fun ctx host => host.handle ctx tx simulate) ctx := by
  refine ⟨?_, fun hosts ctx => result_run_hosts hosts⟩
  intro before after ctx first whole
  cases hfirst : first.value.result with
  | error rejection =>
    have hwhole : whole = first := run_append_of_rejected hfirst _
    exact ⟨hwhole ▸ hfirst, hwhole⟩
  | ok passed =>
    have hwhole : whole.value = _ := value_run_append_of_passed hfirst _
    rw [value_run_secondarySignature] at hwhole
    dsimp only
    cases hresult : (authenticate config store passed tx simulate).run.value with
    | error e =>
      rw [hresult] at hwhole
      refine ⟨congrArg Passage.result hwhole, rfl, congrArg Passage.entered hwhole, ?_⟩
      -- Up to the stage the pipeline has rejected the transaction, so the rest is not run.
      have hstage : (run ctx tx simulate
          (before ++ [.secondarySignature config store])).value.result =
            .error (.secondFactor e) := by
        rw [value_run_append_of_passed hfirst, value_run_secondarySignature, hresult]
        rfl
      rw [← run_append_of_rejected hstage after, List.append_assoc]
      rfl
    | ok admission =>
      rw [hresult] at hwhole
      refine (congrArg Passage.result hwhole).trans ?_
      rw [value_run_append_of_passed hfirst]
      rfl

end SecondFactor.Pipeline
