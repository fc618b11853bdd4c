import FlagPoll.Log
import FlagPoll.Outcome
import FlagPoll.Refusal

/-!
# FlagPoll.Completion.Basic

Completion handles: resolved once, with callbacks that wait for it.

* `resolve` — decides the handle and releases the callbacks that were waiting; a second time is
  refused.
* `result`  — the outcome, refused while the handle is pending.
-/

namespace FlagPoll

inductive Resolution (τ : Type) where
  | succeeded
  | failed (reason : ErrorInfo τ)
  deriving DecidableEq, Repr

/-- A handle, with the callbacks of type `κ` that wait for it. -/
structure Completion (τ κ : Type) where
  resolution : Option (Resolution τ)
  callbacks : List κ
  deriving DecidableEq, Repr

namespace Completion

variable {τ κ : Type}

def pending : Completion τ κ := ⟨none, []⟩

def done (c : Completion τ κ) : Bool := c.resolution.isSome

def progress (c : Completion τ κ) : Progress :=
  match c.resolution with
  | none => .pending
  | some .succeeded => .succeeded
  | some (.failed _) => .failed

def succeeded (c : Completion τ κ) : Bool := c.progress = .succeeded

def error (c : Completion τ κ) : Option (ErrorInfo τ) :=
  match c.resolution with
  | some (.failed reason) => some reason
  | _ => none

def name (c : Completion τ κ) : String := "CompletionHandle(" ++ c.progress.name ++ ")"

/-- The handle once it is resolved, and the callbacks to call, in order. -/
def resolve (c : Completion τ κ) (r : Resolution τ) :
    Except (Refusal τ) (Completion τ κ × List κ) :=
  match c.resolution with
  | none => .ok (⟨some r, []⟩, c.callbacks)
  | some _ => .error (.alreadyResolved c.progress)

/-- The handle after a callback has been registered, and the callbacks to call at once. -/
def addCallback (c : Completion τ κ) (k : κ) : Completion τ κ × List κ :=
  match c.resolution with
  | none => ({ c with callbacks := c.callbacks ++ [k] }, [])
  | some _ => (c, [k])

def raisedLog (message : String) : Log.Record :=
  ⟨.error, "Unexpected error in completion callback: " ++ message⟩

def outcomeOf : Resolution τ → Outcome τ
  | .succeeded => .success .null
  | .failed reason => .fail reason.text (some (.initialization reason))

/-- What a wait is told: whether the handle is resolved. None stands for a wait without end. -/
def wait (c : Completion τ κ) (timeout : Option τ) : Option Bool :=
  match c.resolution, timeout with
  | some _, _ => some true
  | none, some _ => some false
  | none, none => none

/-- The outcome after a wait. None stands for a wait without end. -/
def result (c : Completion τ κ) (timeout : Option τ) :
    Option (Except (Refusal τ) (Outcome τ)) :=
  match c.resolution, timeout with
  | some r, _ => some (.ok (outcomeOf r))
  | none, some t => some (.error (.notCompleted t))
  | none, none => none

theorem succeeded_iff {c : Completion τ κ} :
    c.succeeded = true ↔ c.resolution = some .succeeded := by
  obtain ⟨resolution, callbacks⟩ := c
  rcases resolution with _ | _ | reason <;> simp [succeeded, progress]

/-- Only a handle that has failed has an error, which is the reason. -/
theorem error_eq_some_iff {c : Completion τ κ} {reason : ErrorInfo τ} :
    c.error = some reason ↔ c.resolution = some (.failed reason) := by
  obtain ⟨resolution, callbacks⟩ := c
  rcases resolution with _ | _ | given <;> simp [error]

theorem resolve_pending (r : Resolution τ) (ks : List κ) :
    resolve ⟨none, ks⟩ r = .ok (⟨some r, []⟩, ks) := rfl

theorem resolve_resolved {c : Completion τ κ} (h : c.resolution ≠ none) (r : Resolution τ) :
    c.resolve r = .error (.alreadyResolved c.progress) := by
  unfold resolve
  split
  · contradiction
  · rfl

end Completion
end FlagPoll
