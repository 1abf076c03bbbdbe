import SecondFactor.Authentication

/-!
# Pipelines

Before a transaction is executed it passes the stages of a pipeline, in order. A stage sees the
context that the stage before it passed on, and passes on a context of its own or rejects the
transaction; the stages after a rejection are not entered. The host brings stages of its own
around the one that checks the second factor.
-/

namespace SecondFactor

/-- Why a pipeline rejected a transaction. -/
inductive Rejection where
  /-- The second factor is not in order. -/
  | secondFactor (reason : Error)
  /-- A stage of the host rejected it. -/
  | host (stage reason : String)
deriving DecidableEq

namespace Rejection

/-- The code that results of failed transactions carry. -/
def code : Rejection → String
  | secondFactor reason => reason.code
  | host .. => "HOST_REJECTED"

/-- The wording of a rejection. -/
def message : Rejection → String
  | secondFactor reason => reason.message
  | host stage reason => stage ++ ": " ++ reason

end Rejection

/-- A stage of a pipeline. -/
structure Stage where
  /-- The name of the stage in events. -/
  name : String
  /-- The context to go on with in a block, for a transaction that may be simulated only. -/
  handle : BlockContext → Transaction → Bool → ExceptT Rejection Logged BlockContext

namespace Stage

/-- A stage of the host, which records nothing. -/
def host (name : String)
    (handle : BlockContext → Transaction → Bool → Except Rejection BlockContext) : Stage :=
  ⟨name, fun ctx tx simulate => MonadExcept.ofExcept (handle ctx tx simulate)⟩

/-- The stage that checks the second factor. It passes the context on as it is. -/
def secondarySignature (config : Config) (store : HostStore) : Stage where
  name := "secondary_signature"
  handle ctx tx simulate :=
    ExceptT.adapt .secondFactor do
      let _ ← Authentication.authenticate config store ctx tx simulate
      return ctx

end Stage

/-- The stages that a transaction has to pass, in order. -/
abbrev Pipeline := List Stage

namespace Pipeline

/-- How a transaction fared in a pipeline. -/
structure Passage where
  /-- The names of the stages that it entered, in order. -/
  entered : List String
  /-- The context after the last stage, or the rejection. -/
  result : Except Rejection BlockContext

/-- Sends a transaction through the stages until one rejects it. -/
def run (ctx : BlockContext) (tx : Transaction) (simulate : Bool) : Pipeline → Logged Passage
  | [] => return ⟨[], .ok ctx⟩
  | stage :: rest => do
    match ← (stage.handle ctx tx simulate).run with
    | .ok ctx =>
      let passage ← run ctx tx simulate rest
      return ⟨stage.name :: passage.entered, passage.result⟩
    | .error rejection =>
      record (.stageRejected stage.name rejection.code)
      return ⟨[stage.name], .error rejection⟩

end Pipeline

end SecondFactor
