import FlagPoll.Log

/-!
# FlagPoll.Failure

Failed fetches, and which of them end polling.

* `isFatal`  — a client error other than 400, 408 and 429 will not go away by trying again.
* `info`     — the failure as a status shows it.
* `report`   — the failure as the log tells it.
-/

namespace FlagPoll

/-- Causes other than what the service's answer says. -/
inductive Failure.Cause where
  | os
  | timeout
  | value
  | runtime
  | http
  | nesting
  | unspecified
  deriving DecidableEq, Repr

inductive Failure where
  | status (code : Int)
  | payload (message : String)
  | other (cause : Failure.Cause) (message : String)
  deriving DecidableEq, Repr

inductive ErrorKind where
  | unknown
  | networkError
  | errorResponse
  | invalidData
  deriving DecidableEq, Repr

def ErrorKind.name : ErrorKind → String
  | .unknown => "unknown"
  | .networkError => "network_error"
  | .errorResponse => "error_response"
  | .invalidData => "invalid_data"

/-- One failed poll. The status code is zero unless the service answered with an error status. -/
structure ErrorInfo (τ : Type) where
  kind : ErrorKind
  statusCode : Int
  time : τ
  message : Option String
  deriving DecidableEq, Repr

/-- The message, or the kind where there is none or a blank one. -/
def ErrorInfo.text {τ : Type} (e : ErrorInfo τ) : String :=
  match e.message with
  | none => e.kind.name
  | some m => if m = "" then e.kind.name else m

namespace Failure

/-- Whether an error status will stay one: a client error other than 400, 408 and 429. -/
def isFatalStatus (code : Int) : Bool :=
  400 ≤ code && code < 500 && !([400, 408, 429].contains code)

def isFatal : Failure → Bool
  | .status code => isFatalStatus code
  | _ => false

/-- Whether a response status is an error: one from 400 on. -/
def ofStatus? (code : Int) : Option Failure :=
  if 400 ≤ code then some (.status code) else none

def message : Failure → String
  | .status code => s!"HTTP error {code}"
  | .payload m => m
  | .other _ m => m

def kind : Failure → ErrorKind
  | .status _ => .errorResponse
  | .payload _ => .invalidData
  | .other .. => .networkError

def statusCode : Failure → Int
  | .status code => code
  | _ => 0

def info {τ : Type} (f : Failure) (now : τ) : ErrorInfo τ :=
  ⟨f.kind, f.statusCode, now, some f.message⟩

/-- What is told of an error status in the course of something. -/
def statusText (code : Int) (context : String) : String :=
  let key := if code = 401 ∨ code = 403 then " (invalid SDK key)" else ""
  let outcome := if isFatalStatus code then "giving up permanently" else "will retry"
  s!"Received HTTP error {code}{key} for {context} - {outcome}"

/-- What the log tells of a failed poll: an error exactly if polling ends. -/
def report (f : Failure) : Log.Record :=
  match f with
  | .status code =>
    ⟨if isFatalStatus code then .error else .warning, statusText code "polling request"⟩
  | f =>
    ⟨.warning,
      "Error: Exception encountered when polling for flag data, will retry. " ++ f.message⟩

theorem isFatalStatus_iff (code : Int) : isFatalStatus code = true ↔
    (400 ≤ code ∧ code ≤ 499) ∧ code ≠ 400 ∧ code ≠ 408 ∧ code ≠ 429 := by
  simp [isFatalStatus]; omega

end Failure
end FlagPoll
