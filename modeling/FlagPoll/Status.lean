import FlagPoll.Failure

/-!
# FlagPoll.Status

The lifecycle of a synchronizer and the status that it shows.
-/

namespace FlagPoll

inductive Lifecycle where
  | notStarted
  | polling
  | initialized
  | permanentlyFailed
  | closed
  deriving DecidableEq, Repr

namespace Lifecycle

def name : Lifecycle → String
  | .notStarted => "not_started"
  | .polling => "polling"
  | .initialized => "initialized"
  | .permanentlyFailed => "permanently_failed"
  | .closed => "closed"

/-- Polls have an effect only in these states. -/
def isActive : Lifecycle → Bool
  | .polling => true
  | .initialized => true
  | _ => false

end Lifecycle

/-- The state, when it was entered, and the most recent poll error. -/
structure Status (τ : Type) where
  state : Lifecycle
  since : τ
  error : Option (ErrorInfo τ)
  deriving DecidableEq, Repr

end FlagPoll
