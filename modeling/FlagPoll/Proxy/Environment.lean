import FlagPoll.Url.Target

/-!
# FlagPoll.Proxy.Environment

Proxies as the environment names them.

* `effective`   — the value of `<name>_proxy`: spellings in small letters win over others, and an
  empty one takes the proxy away.
* `isExcluded`  — whether `no_proxy` excludes a target.
* `proxyFor`    — the proxy for a target, if there is one.
-/

namespace FlagPoll.Proxy

open Url (Target)

/-- Variables in the order in which they were first set. -/
abbrev Environment := List (String × String)

namespace Environment

def put (name value : String) : Environment → Environment
  | [] => [(name, value)]
  | (n, v) :: rest => if n = name then (n, value) :: rest else (n, v) :: put name value rest

def ofList (vars : List (String × String)) : Environment :=
  vars.foldl (fun env (name, value) => put name value env) []

def suffix : List Char := "_proxy".toList

/-- Whether a variable is a spelling of `<key>_proxy`. -/
def names (name : String) (key : String) : Bool :=
  Text.lowercase name.toList = key.toList ++ suffix

/-- Whether the suffix of a variable is in small letters. -/
def hasPlainSuffix (name : String) : Bool := suffix.isSuffixOf name.toList

/-- The last non-empty value under any spelling. -/
def anySpelling (env : Environment) (key : String) : Option String :=
  env.foldl (fun found (n, v) => if names n key && v ≠ "" then some v else found) none

/-- Whether a program is run by a web server, where callers choose some variables. -/
def isServed (env : Environment) : Bool := env.any fun (n, _) => n = "REQUEST_METHOD"

def effective (env : Environment) (key : String) : Option String :=
  let start := if key = "http" && env.isServed then none else env.anySpelling key
  env.foldl
    (fun found (n, v) =>
      if hasPlainSuffix n && names n key then if v = "" then none else some v else found)
    start

/-- The hosts that an entry stands for: leading dots and case do not count. -/
def entryName (entry : List Char) : List Char :=
  Text.lowercase (Text.dropFront (· = '.') entry)

/-- The entries of a `no_proxy` list, without blank ones. -/
def entries (list : List Char) : List (List Char) :=
  (((Text.fields ',' list).map Text.trim).filter (· ≠ [])).map entryName

/-- A name covers itself and every name that ends in it after a dot. -/
def covers (name host : List Char) : Bool := name = host || ('.' :: name).isSuffixOf host

def hostPort (t : Target) : List Char := t.host ++ ':' :: Nat.toDigits 10 t.port

/-- Whether a `no_proxy` list excludes a target, given with or without its port. -/
def isExcluded (list : String) (t : Target) : Bool :=
  list = "*" ||
    (entries list.toList).any fun name =>
      covers name (Text.lowercase t.host) || covers name (Text.lowercase (hostPort t))

/-- The proxy for a target. -/
def proxyForTarget (env : Environment) (t : Target) : Option String :=
  match env.effective (if t.secure then "https" else "http") with
  | none => none
  | some proxy =>
    match env.effective "no" with
    | none => some proxy
    | some list => if isExcluded list t then none else some proxy

/-- The proxy for requests to an address; there is none without an address. -/
def proxyFor (env : Environment) (address : Option String) :
    Except Target.Fault (Option String) :=
  match address with
  | none => .ok none
  | some text => (Target.ofText text.toList).map env.proxyForTarget

end Environment
end FlagPoll.Proxy
