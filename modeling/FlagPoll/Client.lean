import FlagPoll.Failure
import FlagPoll.Headers
import FlagPoll.Payload
import FlagPoll.Text.Lowercase

/-!
# FlagPoll.Client

Fetching the data set over HTTP. Other requests may be sent and answered before a request is
answered, so an answer is read with the data set that was cached when its request was sent.

* `Client.request` — the request that is sent next; it carries the tag of the cached data set.
* `Client.receive` — what an answer means: a snapshot or a failure, and the cache afterwards.
* `Client.fetch`   — the same for a request that is answered before another one is sent.
-/

namespace FlagPoll

structure Reply where
  status : Int
  headers : Headers
  body : List UInt8
  deriving Repr

/-- What comes of a request: a response, or no response at all. -/
abbrev Answer := Except Failure Reply

namespace Reply

/-- The value of a header, whatever the case of its name; repeated values are joined. -/
def header? (r : Reply) (name : String) : Option String :=
  match r.headers.filter fun h => Text.lowerAscii h.1.toList = Text.lowerAscii name.toList with
  | [] => none
  | hs => some (", ".intercalate (hs.map (·.2)))

def etag? (r : Reply) : Option String := r.header? "ETag"

end Reply

/-- What an answer means to someone who remembers no earlier one. -/
def Answer.outcome (a : Answer) : Except Failure Snapshot :=
  match a with
  | .error f => .error f
  | .ok r =>
    match Failure.ofStatus? r.status with
    | some f => .error f
    | none => (Payload.read r.body).mapError (·.failure)

/-- The last data set that came with a tag. -/
structure CacheEntry where
  snapshot : Snapshot
  etag : String
  /-- Which of the cached data sets this is, counted from one. -/
  number : Nat
  deriving Repr

/-- The entry after an item of one of the cached data sets has been emptied, which matters only if
it is this one. -/
def CacheEntry.clearItem (e : CacheEntry) (number : Nat) (kind : Kind) (key : CodePoints) :
    CacheEntry :=
  if e.number = number then { e with snapshot := e.snapshot.clearItem kind key } else e

structure Client where
  url : String
  headers : Headers
  timeouts : Timeouts
  cached : Option CacheEntry
  deriving Repr

structure Request where
  url : String
  headers : Headers
  timeouts : Timeouts
  deriving DecidableEq, Repr

namespace Client

def retries : Nat := 1

def ofConfig (c : Config) : Except Timeouts.Fault Client :=
  (Timeouts.ofSettings c.http).map fun t =>
    ⟨requestUrl c, Headers.base c ++ [("Accept-Encoding", "gzip")], t, none⟩

def request (c : Client) : Request where
  url := c.url
  headers :=
    match c.cached with
    | none => c.headers
    | some entry => c.headers ++ [("If-None-Match", entry.etag)]
  timeouts := c.timeouts

def unchangedLog (c : Client) (entry : CacheEntry) : Log.Record :=
  ⟨.debug, c.url ++ " response status:[304] using cached data, ETag:[" ++ entry.etag ++ "]"⟩

def receivedLog (c : Client) (r : Reply) (s : Snapshot) : Log.Record :=
  ⟨.debug, c.url ++ " response status:[" ++ toString r.status ++ "] " ++ toString s.size
    ++ " items, ETag:[" ++ r.etag?.getD "None" ++ "]"⟩

/-- The number of the data set that was cached last, zero before the first. -/
def lastNumber (c : Client) : Nat := (c.cached.map (·.number)).getD 0

/-- A body that is read; if it came with a tag it is the cached one from now on. -/
def accept (c : Client) (r : Reply) : Client × Except Failure Snapshot × List Log.Record :=
  match Payload.read r.body with
  | .error f => (c, .error f.failure, [])
  | .ok s =>
    let cached := match r.etag? with
      | some tag => some ⟨s, tag, c.lastNumber + 1⟩
      | none => c.cached
    ({ c with cached }, .ok s, [c.receivedLog r s])

/-- The outcome of a request that was sent while `asked` was the cached data set. A response that
says "unchanged" stands for that one if there was one, whatever has been cached since. -/
def receive (c : Client) (asked : Option CacheEntry) (a : Answer) :
    Client × Except Failure Snapshot × List Log.Record :=
  match a with
  | .error f => (c, .error f, [])
  | .ok r =>
    match Failure.ofStatus? r.status with
    | some f => (c, .error f, [])
    | none =>
      match asked with
      | none => c.accept r
      | some entry =>
        if r.status = 304 then (c, .ok entry.snapshot, [c.unchangedLog entry]) else c.accept r

/-- The outcome of a request that is answered before another one is sent. -/
def fetch (c : Client) (a : Answer) : Client × Except Failure Snapshot × List Log.Record :=
  c.receive c.cached a

/-- Which of the cached data sets an answer stands for, if it stands for one: the one that was
asked about, or the one that is cached from now on. -/
def numberOf (c : Client) (asked : Option CacheEntry) (a : Answer) : Option Nat :=
  match a with
  | .error _ => none
  | .ok r =>
    match asked.filter fun _ => r.status = 304 with
    | some entry => some entry.number
    | none => r.etag?.map fun _ => c.lastNumber + 1

/-- The client after an item of one of its cached data sets has been emptied, which matters only
if that one is still cached. -/
def clearItem (c : Client) (number : Nat) (kind : Kind) (key : CodePoints) : Client :=
  { c with cached := c.cached.map (·.clearItem number kind key) }

end Client
end FlagPoll
