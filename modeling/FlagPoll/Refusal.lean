import FlagPoll.Status
import FlagPoll.Store.Reader
import FlagPoll.Time

/-!
# FlagPoll.Refusal

Errors that a call ends in.
-/

namespace FlagPoll

/-- How a completion handle stands. -/
inductive Progress where
  | pending
  | succeeded
  | failed
  deriving DecidableEq, Repr

def Progress.name : Progress → String
  | .pending => "pending"
  | .succeeded => "succeeded"
  | .failed => "failed"

inductive Refusal (τ : Type) where
  | cannotStart (state : Lifecycle)
  | alreadyResolved (progress : Progress)
  | notCompleted (timeout : τ)
  | storeRefused (message : String)
  | reader (fault : Store.Reader.Fault)
  | badInterval (interval : Option τ)
  | alreadyLaunched
  /-- Calls out of the library are nested too deeply for another poll. -/
  | tooDeep
  deriving DecidableEq, Repr

def Refusal.message {τ : Type} [Time τ] : Refusal τ → String
  | .cannotStart state => "PollingSynchronizer cannot be started from state " ++ state.name
  | .alreadyResolved progress => "completion handle was already resolved as " ++ progress.name
  | .notCompleted timeout =>
    "initialization did not complete within " ++ Time.text timeout ++ " seconds"
  | .storeRefused message => message
  | .reader fault => fault.message
  | .badInterval interval =>
    "poll_interval must be greater than zero, got "
      ++ match interval with
        | none => "None"
        | some t => Time.text t
  | .alreadyLaunched => "threads can only be started once"
  | .tooDeep => "maximum recursion depth exceeded while calling a Python object"

end FlagPoll
