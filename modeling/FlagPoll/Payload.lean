import FlagPoll.Failure
import FlagPoll.Text.Utf8
import FlagPoll.Json.Reader
import FlagPoll.Snapshot

/-!
# FlagPoll.Payload

Bodies of polling responses: octets that have to be UTF-8, JSON and a snapshot, in this order.

* `readWithin`, `read` — the snapshot in a body, or its first fault.
* `Fault.failure` — the fault as the failure of a fetch.
-/

namespace FlagPoll.Payload

inductive Fault where
  | encoding (fault : Utf8.Fault)
  | text (body : List Char) (fault : Json.Reader.Fault)
  | shape (fault : Snapshot.Fault)
  deriving DecidableEq, Repr

/-- Whether a text is nested too deeply to be read, whatever else it holds. -/
def isTooDeep : Json.Reader.Cause → Bool
  | .tooDeep _ => true
  | _ => false

def Fault.message : Fault → String
  | .encoding f => "polling response was not valid JSON: " ++ f.message
  | .text body f =>
    if isTooDeep f.cause then f.message body
    else "polling response was not valid JSON: " ++ f.message body
  | .shape f => f.message

/-- A text that is nested too deeply is not a fault of the response. -/
def Fault.failure (f : Fault) : Failure :=
  match f with
  | .text _ g => if isTooDeep g.cause then .other .nesting f.message else .payload f.message
  | _ => .payload f.message

/-- The snapshot in a body whose text has so many values nested in each other at most. -/
def readWithin (room : Nat) (body : List UInt8) : Except Fault Snapshot :=
  match Utf8.decode body with
  | .error f => .error (.encoding f)
  | .ok text =>
    match Json.readWithin room text with
    | .error f => .error (.text text f)
    | .ok v => (Snapshot.ofJson v).mapError .shape

def read (body : List UInt8) : Except Fault Snapshot := readWithin Json.Reader.mostNested body

end FlagPoll.Payload
