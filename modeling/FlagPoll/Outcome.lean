import FlagPoll.Failure
import FlagPoll.Json.Basic

/-!
# FlagPoll.Outcome

Outcomes of operations that fail without raising: a value, or an error text and perhaps what is
behind it.
-/

namespace FlagPoll

inductive Trouble (τ : Type) where
  | failure (f : Failure)
  | initialization (reason : ErrorInfo τ)
  deriving DecidableEq, Repr

def Trouble.message {τ : Type} : Trouble τ → String
  | .failure f => f.message
  | .initialization reason => reason.text

structure Outcome (τ : Type) where
  value : Json.Value
  error : Option String
  trouble : Option (Trouble τ)
  deriving Repr

namespace Outcome

variable {τ : Type}

def success (value : Json.Value) : Outcome τ := ⟨value, none, none⟩

def fail (error : String) (trouble : Option (Trouble τ)) : Outcome τ := ⟨.null, some error, trouble⟩

/-- Only the lack of an error text makes a success. -/
def isSuccess (o : Outcome τ) : Bool := o.error.isNone

end Outcome
end FlagPoll
