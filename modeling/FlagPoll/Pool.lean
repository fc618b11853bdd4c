import FlagPoll.Config
import FlagPoll.Proxy.Environment
import FlagPoll.Text.Base64
import FlagPoll.Url.ProxyAddress

/-!
# FlagPoll.Pool

Connection pools: through which proxy requests go, and which certificates are trusted.

* `Pool.make` — a configured proxy wins over the environment; with neither, connections are direct.
-/

namespace FlagPoll

open Url (ProxyAddress Target)

inductive Trust where
  | standard
  | bundle (path : String)
  | everything
  deriving DecidableEq, Repr

structure Pool where
  proxy : Option ProxyAddress
  trust : Trust
  certFile : Option String
  size : Nat
  deriving DecidableEq, Repr

namespace Pool

inductive Fault where
  | target (fault : Target.Fault)
  | proxy (fault : ProxyAddress.Fault)
  deriving DecidableEq, Repr

def trustOf (h : HttpSettings) : Trust :=
  if h.skipVerification then .everything
  else
    match h.caCerts with
    | none => .standard
    | some path => if path = "" then .standard else .bundle path

/-- The proxy's address: the configured one unless it is blank, else that of the environment. -/
def proxyText (h : HttpSettings) (env : Proxy.Environment) (target : Option String) :
    Except Target.Fault (Option String) :=
  match h.proxy.filter (· ≠ "") with
  | some p => .ok (some p)
  | none => env.proxyFor target

def make (h : HttpSettings) (env : Proxy.Environment) (target : Option String) (size : Nat) :
    Except Fault Pool :=
  match proxyText h env target with
  | .error f => .error (.target f)
  | .ok none => .ok ⟨none, trustOf h, h.certFile, size⟩
  | .ok (some text) =>
    match ProxyAddress.ofText text.toList with
    | .error f => .error (.proxy f)
    | .ok p => .ok ⟨some p, trustOf h, h.certFile, size⟩

/-- Octets of a text with one octet for each character. -/
def narrowOctets (cs : List Char) : List UInt8 := cs.map fun c => .ofNat c.toNat

def credentials (p : ProxyAddress) : Option String :=
  p.auth.map fun auth => "Basic " ++ String.ofList (Base64.encode (narrowOctets auth))

end Pool
end FlagPoll
