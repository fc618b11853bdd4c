import FlagPoll.Agenda
import FlagPoll.Callout
import FlagPoll.Client
import FlagPoll.Store
import FlagPoll.Synchronizer.Basic

/-!
# FlagPoll.Synchronizer.Machine

A synchronizer in its surroundings: the calls that are made on it, the callees that it calls out
to, the store that it fills, and a clock that stands still while it works.

* `Op`      — calls; callees may make them too.
* `World`   — what the surroundings do whenever they are called.
* `Event`   — what a run shows.
* `Machine` — the synchronizer, its surroundings' state, and what is still to be done.
-/

namespace FlagPoll.Synchronizer

/-- What the service answers to a fetch: the data set or a failure from a requester of the caller's
own, or an answer over HTTP. -/
inductive Delivery where
  | fetched (outcome : Except Failure Snapshot)
  | http (answer : Answer)
  deriving Repr

/-- A response: it takes its time, calls are made while it is under way, and it delivers. -/
structure Response (τ ω : Type) where
  duration : τ
  during : List ω
  delivery : Delivery

inductive Op (τ κ : Type) where
  | start
  | close
  /-- The synchronizer is used for some calls and closed after them. -/
  | within (ops : List (Op τ κ))
  | state
  | status
  | addListener (listener : κ)
  | removeListener (listener : κ)
  | handle
  | wait (timeout : Option τ)
  | result (timeout : Option τ)
  | addCallback (callback : κ)
  | get (kind : Kind) (key : CodePoints) (reader : Store.Reader)
  | all (kind : Kind) (reader : Store.Reader)
  | storeInitialized
  | advance (amount : τ)
  /-- One poll, outside the schedule. Its fetch has a response of its own or, if none is given, the
  service's next one. -/
  | poll (response : Option (Response τ (Op τ κ)))

inductive Reading (τ κ : Type) where
  | nothing
  | refused (r : Refusal τ)
  | started (c : Completion τ κ)
  | handle (c : Completion τ κ)
  | state (state : Lifecycle) (initialized storeInitialized : Bool)
  | status (s : Status τ)
  | flag (b : Bool)
  | outcome (o : Outcome τ)
  | item (v : Json.Value)
  | time (t : τ)
  | list (readings : List (Reading τ κ))
  | endless

/-- What the store's write does besides writing: calls before it, perhaps an exception instead of
it, calls after it. -/
structure WriteScript (ω : Type) where
  before : List ω
  raises : Option String
  after : List ω

/-- The surroundings. Callees may act differently each time; they are told how many calls out there
have been. -/
structure World (τ κ : Type) where
  interval : τ
  /-- What the wall clock shows at the beginning. -/
  epoch : τ
  /-- Waits end the simulation at this moment. -/
  horizon : τ
  /-- The n-th response of the service. -/
  response : Nat → Response τ (Op τ κ)
  write : Nat → WriteScript (Op τ κ)
  closing : Nat → Script (Op τ κ)
  listener : Nat → κ → Status τ → Script (Op τ κ)
  callback : Nat → κ → Completion τ κ → Script (Op τ κ)

inductive Event (τ κ : Type) where
  | called (clock : τ) (op : Op τ κ)
  | returned (op : Op τ κ) (reading : Reading τ κ)
  | answered (op : Op τ κ) (reading : Reading τ κ)
  | logged (record : Log.Record)
  /-- A fetch begins, perhaps by a request over HTTP. -/
  | fetch (clock : τ) (request : Option Request)
  | fetched (clock : τ) (outcome : Except Failure Snapshot)
  | write (s : Snapshot)
  | closeRequester
  | changed (clock : τ) (c : Change τ)
  /-- A notification goes out to the listeners that are registered. -/
  | delivering (c : Change τ) (listeners : List κ)
  | toldListener (listener : κ) (c : Change τ)
  | toldCallback (callback : κ) (c : Completion τ κ)
  | wait (t : τ)
  | ended (clock : τ)

inductive Callee where
  | listener
  | callback
  | fetch
  | write
  | closing
  deriving DecidableEq, Repr

/-- How much of the call stack a call out takes, with the call that leads to it. -/
def Callee.load : Callee → Nat
  | .listener => 9
  | .callback => 10
  | .fetch => 6
  | .write => 7
  | .closing => 7

inductive Task (τ κ : Type) where
  | perform (op : Op τ κ)
  | give (reading : Reading τ κ)
  | report (op : Op τ κ)
  | conclude (op : Op τ κ)
  /-- The next of the calls for which the synchronizer is used, after those that are done. -/
  | gather (ops : List (Op τ κ)) (done : List (Reading τ κ))
  /-- One of these calls has returned. -/
  | collect (ops : List (Op τ κ)) (done : List (Reading τ κ))
  | launch
  | giveHandle
  | closeRequester
  | notify (c : Change τ)
  | tell (listener : κ) (c : Change τ)
  | invoke (callback : κ)
  | listenerRaised (message : String)
  | callbackRaised (message : String)
  | closingRaised (message : String)
  | poll (own : Option (Response τ (Op τ κ)))
  /-- A fetch returns; its request was sent while `asked` was the client's cached data set. -/
  | receive (d : Delivery) (asked : Option CacheEntry)
  /-- The store's write gets under way; the snapshot may be one of the cached ones. -/
  | write (s : Snapshot) (cached : Option Nat) (script : WriteScript (Op τ κ))
  | written
  | pass (target : τ) (span : Span)
  | leave (callee : Callee)
  /-- Nothing is in progress: calls come in until the polling task is launched. -/
  | main
  /-- The polling task is over: the rest of the time passes. -/
  | rest
  | await (next : τ)
  | wake
  | ran

/-- What is to be done after an item of one of the cached data sets has been emptied: a fetch under
way, or the store's write, may still come to that one. -/
def Task.clearItem {τ κ : Type} (number : Nat) (kind : Kind) (key : CodePoints) :
    Task τ κ → Task τ κ
  | .receive d asked => .receive d (asked.map (·.clearItem number kind key))
  | .write s cached script =>
    .write (if cached = some number then s.clearItem kind key else s) cached script
  | task => task

inductive Requester where
  | own
  | client (c : Client)

structure Machine (τ κ : Type) where
  sync : Synchronizer τ κ
  store : Store
  /-- Which of the client's cached data sets the store shares its items with. -/
  shared : Option Nat
  requester : Requester
  clock : τ
  agenda : Agenda τ (Op τ κ)
  stack : List (Task τ κ)
  reading : Reading τ κ
  /-- The latest event comes first. -/
  journal : List (Event τ κ)
  callouts : Nat
  /-- How much of the call stack the calls out in progress take. -/
  load : Nat
  /-- How many of the service's responses have been used. -/
  responses : Nat
  begun : Bool

end FlagPoll.Synchronizer
