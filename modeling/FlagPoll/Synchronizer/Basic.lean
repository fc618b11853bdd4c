import FlagPoll.Completion.Basic
import FlagPoll.Listeners.Basic
import FlagPoll.Status

/-!
# FlagPoll.Synchronizer.Basic

The state of a synchronizer and the changes to it, each made in one go under its lock.

* `begin?`, `close?`       — the calls that change the lifecycle.
* `poll?`, `returned`      — around a fetch.
* `initialize`, `recover?`, `giveUp?` — what the outcome of a fetch changes.
* `admit?`                 — a notification goes out only if no later one has begun to.
-/

namespace FlagPoll

structure Synchronizer (τ κ : Type) where
  state : Lifecycle
  since : τ
  lastError : Option (ErrorInfo τ)
  fetching : Bool
  /-- The number of the latest change. -/
  sequence : Nat
  /-- The number of the latest change that listeners have begun to be told of. -/
  notified : Nat
  handle : Completion τ κ
  listeners : Listeners κ
  stopped : Bool
  launched : Bool
  deriving Repr

/-- A change of the status, numbered in order. -/
structure Change (τ : Type) where
  number : Nat
  status : Status τ
  deriving DecidableEq, Repr

namespace Synchronizer

variable {τ κ : Type}

def create (now : τ) : Synchronizer τ κ :=
  { state := .notStarted, since := now, lastError := none, fetching := false, sequence := 0,
    notified := 0, handle := .pending, listeners := [], stopped := false, launched := false }

def status (s : Synchronizer τ κ) : Status τ := ⟨s.state, s.since, s.lastError⟩

def initialized (s : Synchronizer τ κ) : Bool := s.handle.succeeded

def changed (s : Synchronizer τ κ) : Synchronizer τ κ × Change τ :=
  let s := { s with sequence := s.sequence + 1 }
  (s, ⟨s.sequence, s.status⟩)

/-- Enters a state; the moment counts only if the state is a new one. -/
def enter (s : Synchronizer τ κ) (state : Lifecycle) (now : τ) : Synchronizer τ κ × Change τ :=
  (if s.state = state then s else { s with state, since := now }).changed

/-- Polling begins, once. -/
def begin? (s : Synchronizer τ κ) (now : τ) : Option (Synchronizer τ κ × Change τ) :=
  if s.state = .notStarted then some (s.enter .polling now) else none

/-- Polling is over for good, once. -/
def close? (s : Synchronizer τ κ) (now : τ) : Option (Synchronizer τ κ × Change τ) :=
  if s.state = .closed then none else some ({ s with stopped := true }.enter .closed now)

/-- A fetch begins, if polls have an effect. -/
def poll? (s : Synchronizer τ κ) : Option (Synchronizer τ κ) :=
  if s.state.isActive then some { s with fetching := true } else none

def returned (s : Synchronizer τ κ) : Synchronizer τ κ := { s with fetching := false }

/-- A snapshot has been applied; only the first one changes the status. -/
def initialize? (s : Synchronizer τ κ) (now : τ) : Option (Synchronizer τ κ × Change τ) :=
  if s.state = .polling then some (s.enter .initialized now) else none

/-- A failure that may go away. -/
def recover? (s : Synchronizer τ κ) (reason : ErrorInfo τ) :
    Option (Synchronizer τ κ × Change τ) :=
  if s.state.isActive then some { s with lastError := some reason }.changed else none

/-- A failure that will not go away. -/
def giveUp? (s : Synchronizer τ κ) (reason : ErrorInfo τ) (now : τ) :
    Option (Synchronizer τ κ × Change τ) :=
  if s.state.isActive then
    some ({ s with lastError := some reason, stopped := true }.enter .permanentlyFailed now)
  else none

/-- A notification goes out unless a later one has begun to. -/
def admit? (s : Synchronizer τ κ) (number : Nat) : Option (Synchronizer τ κ) :=
  if number ≤ s.notified then none else some { s with notified := number }

end Synchronizer
end FlagPoll
