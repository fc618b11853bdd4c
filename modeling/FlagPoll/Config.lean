import FlagPoll.Json.Basic
import FlagPoll.Log
import FlagPoll.Number
import FlagPoll.Text.Blank

/-!
# FlagPoll.Config

Settings of a synchronizer.

* `Config.make`    — brings given settings into the form in which they are used: no slash at the
  end of the address, polls no closer than thirty seconds, tags that a header can carry.
* `Config.withKey` — the same settings with another key.
-/

namespace FlagPoll

open Json (Value Members)

structure HttpSettings where
  connectTimeout : Option Number := some 10
  readTimeout : Option Number := some 15
  proxy : Option String := none
  caCerts : Option String := none
  certFile : Option String := none
  skipVerification : Bool := false
  deriving DecidableEq, Repr

/-- Name and version of the application; blank where there is none to report. -/
structure Tags where
  id : String
  version : String
  deriving DecidableEq, Repr

namespace Tags

def mostCharacters : Nat := 64

def isTagChar (c : Char) : Bool := c.isAlphanum || c = '.' || c = '_' || c = '-'

inductive Fault where
  | long
  | characters
  deriving DecidableEq, Repr

def Fault.record (name : String) : Fault → Log.Record
  | .long =>
    ⟨.warning, s!"application[{name}] is longer than {mostCharacters} characters; ignoring it"⟩
  | .characters =>
    ⟨.warning, s!"application[{name}]"
      ++ " contains characters other than letters, digits, \".\", \"_\" and \"-\"; ignoring it"⟩

def fault? (s : String) : Option Fault :=
  if mostCharacters < s.length then some .long
  else if s.toList.all isTagChar then none
  else some .characters

/-- A tag as it is reported, and what is logged of it. -/
def read (name : String) (given : Option Value) : String × List Log.Record :=
  match given with
  | some (.string s) =>
    match fault? s.toString with
    | none => (s.toString, [])
    | some f => ("", [f.record name])
  | _ => ("", [])

def ofMembers (application : Members) : Tags × List Log.Record :=
  let (id, first) := read "id" (application.get? "id")
  let (version, second) := read "version" (application.get? "version")
  (⟨id, version⟩, first ++ second)

def toMembers (t : Tags) : Members := [("id", .string t.id), ("version", .string t.version)]

end Tags

structure Config where
  sdkKey : Option String
  baseUri : String
  pollInterval : Number
  http : HttpSettings
  ownRequester : Bool
  wrapperName : Value
  wrapperVersion : Value
  tags : Tags
  filterKey : Option String
  deriving Repr

namespace Config

structure Arguments where
  sdkKey : Option String
  baseUri : String := "https://sdk.flagsync.dev"
  pollInterval : Number := .float (.ofInt 30)
  http : HttpSettings := {}
  ownRequester : Bool := false
  wrapperName : Value := .null
  wrapperVersion : Value := .null
  application : Members := []
  filterKey : Option String := none
  deriving Repr

def leastInterval : Number := .float (.ofInt 30)

def trimSlashes (s : String) : String := String.ofList (Text.dropBack (· = '/') s.toList)

def isBlankKey (key : Option String) : Bool := key.all (· = "")

def blankKeyLog : Log.Record :=
  ⟨.warning, "Missing or blank sdk_key; the flag service will reject every poll."⟩

def make (a : Arguments) : Config × List Log.Record :=
  let (tags, tagLog) := Tags.ofMembers a.application
  let config : Config :=
    { sdkKey := a.sdkKey
      baseUri := trimSlashes a.baseUri
      pollInterval := Time.latest a.pollInterval leastInterval
      http := a.http
      ownRequester := a.ownRequester
      wrapperName := a.wrapperName
      wrapperVersion := a.wrapperVersion
      tags := tags
      filterKey := a.filterKey }
  (config, tagLog ++ if isBlankKey a.sdkKey then [blankKeyLog] else [])

/-- Settings that make a configuration again, with a key of their own. -/
def toArguments (c : Config) (key : Option String) : Arguments where
  sdkKey := key
  baseUri := c.baseUri
  pollInterval := c.pollInterval
  http := c.http
  ownRequester := c.ownRequester
  wrapperName := c.wrapperName
  wrapperVersion := c.wrapperVersion
  application := c.tags.toMembers
  filterKey := c.filterKey

def withKey (c : Config) (key : Option String) : Config × List Log.Record :=
  make (c.toArguments key)

end Config
end FlagPoll
