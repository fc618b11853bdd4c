import FlagPoll.Config
import FlagPoll.Text.FormUrl

/-!
# FlagPoll.Headers

What a request says: its headers, its address and how long it may take.

* `Headers.base`      — credentials, identification, tags and wrapper.
* `requestUrl`        — the address of a poll.
* `Timeouts.ofConfig` — the time limits of a request, which have to be positive.
-/

namespace FlagPoll

open Json (Value)

abbrev Headers := List (String × String)

namespace Headers

/-- The parts `name/value` of the tags that are not blank. -/
def tagParts (t : Tags) : List String :=
  ([("application-id", t.id), ("application-version", t.version)].filter (·.2 ≠ "")).map
    fun (name, value) => name ++ "/" ++ value

def tags? (t : Tags) : Option String :=
  match tagParts t with
  | [] => none
  | parts => some (" ".intercalate parts)

/-- The wrapper's name, with its version if both are texts that are not blank. -/
def wrapper? (name version : Value) : Option String :=
  match name with
  | .string n =>
    if n = "" then none
    else
      match version with
      | .string v => some (if v = "" then n.toString else n.toString ++ "/" ++ v.toString)
      | _ => some n.toString
  | _ => none

def optional (name : String) (value : Option String) : Headers :=
  match value with
  | some v => [(name, v)]
  | none => []

def base (c : Config) : Headers :=
  [("Authorization", c.sdkKey.getD ""), ("User-Agent", "FlagSyncPython/1.0.0")]
    ++ optional "X-FlagSync-Tags" (tags? c.tags)
    ++ optional "X-FlagSync-Wrapper" (wrapper? c.wrapperName c.wrapperVersion)

end Headers

/-- The path under which the service keeps the whole data set. -/
def latestAllPath : String := "/sdk/latest-all"

def filterQuery (key : Option String) : String :=
  match key with
  | none => ""
  | some k => "?filter=" ++ String.ofList (FormUrl.encode k.toList)

def requestUrl (c : Config) : String := c.baseUri ++ latestAllPath ++ filterQuery c.filterKey

/-- Time limits of a request; none waits without limit. -/
structure Timeouts where
  connect : Option Number
  read : Option Number
  deriving DecidableEq, Repr

namespace Timeouts

inductive Fault where
  | tooLarge
  | notPositive (name : String) (value : Number)
  deriving DecidableEq, Repr

def Fault.message : Fault → String
  | .tooLarge => "int too large to convert to float"
  | .notPositive name value =>
    "Attempted to set " ++ name ++ " timeout to " ++ value.text
      ++ ", but the timeout cannot be set to a value less than or equal to 0."

def check (name : String) (t : Option Number) : Except Fault Unit :=
  match t with
  | none => .ok ()
  | some v =>
    if v.isTooLarge then .error .tooLarge
    else if v ≤ 0 then .error (.notPositive name v)
    else .ok ()

/-- The limit on connecting is looked at first. -/
def ofSettings (h : HttpSettings) : Except Fault Timeouts := do
  check "connect" h.connectTimeout
  check "read" h.readTimeout
  return ⟨h.connectTimeout, h.readTimeout⟩

end Timeouts
end FlagPoll
