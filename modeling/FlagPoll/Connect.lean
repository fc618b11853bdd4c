import FlagPoll.Client
import FlagPoll.Pool

/-!
# FlagPoll.Connect

From a configuration to someone who fetches.

* `Client.connect` — a client with its connection pool.
-/

namespace FlagPoll.Client

inductive Fault where
  | timeouts (fault : Timeouts.Fault)
  | pool (fault : Pool.Fault)
  deriving DecidableEq, Repr

def poolSize : Nat := 1

/-- The time limits are looked at before the proxy. -/
def connect (c : Config) (env : Proxy.Environment) : Except Fault (Client × Pool) :=
  match ofConfig c with
  | .error f => .error (.timeouts f)
  | .ok client =>
    match Pool.make c.http env (some c.baseUri) poolSize with
    | .error f => .error (.pool f)
    | .ok pool => .ok (client, pool)

/-- What is logged when polls go through a requester of the caller's own. -/
def ownRequesterLog (name : String) : Log.Record :=
  ⟨.info, "Using user-specified feature requester: " ++ name⟩

end FlagPoll.Client
