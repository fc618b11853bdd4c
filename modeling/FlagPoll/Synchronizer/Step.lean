import FlagPoll.Schedule
import FlagPoll.Synchronizer.Machine

/-!
# FlagPoll.Synchronizer.Step

How a synchronizer runs: one step does what happens without any call out in between, and leaves
the rest on the stack.

* `Machine.perform` — what a call does.
* `Machine.step`    — one step.
* `Machine.run`     — steps until nothing is left to be done.
-/

namespace FlagPoll.Synchronizer

variable {τ κ : Type}

def callTasks (ops : List (Op τ κ)) : List (Task τ κ) :=
  ops.flatMap fun op => [.perform op, .report op]

def scriptTasks (script : Script (Op τ κ)) (raised : String → Task τ κ) : List (Task τ κ) :=
  callTasks script.ops ++ (script.raises.map raised).toList

def startLog [Time τ] (interval : τ) : Log.Record :=
  ⟨.info, "Starting PollingSynchronizer with request interval: " ++ Time.text interval⟩

def stopLog : Log.Record := ⟨.info, "Stopping PollingSynchronizer"⟩

def initializedLog : Log.Record := ⟨.info, "PollingSynchronizer initialized ok"⟩

def discardAfterCloseLog : Log.Record := ⟨.debug, "Discarding polling result received after close"⟩

def discardLog (state : Lifecycle) : Log.Record :=
  ⟨.debug, "Discarding polling result received in state " ++ state.name⟩

def supersededLog (state : Lifecycle) : Log.Record :=
  ⟨.debug, "Dropping superseded status notification: " ++ state.name⟩

/-- What the listeners of a synchronizer listen to. -/
def listenersName : String := "data source status"

def closingLog (message : String) : Log.Record :=
  ⟨.error, "Error closing feature requester: " ++ message⟩

def taskName : String := "flagsync.polling"

def Requester.cached : Requester → Option CacheEntry
  | .own => none
  | .client c => c.cached

/-- What a fetch that has returned comes to; its request was sent while `asked` was cached. -/
def Requester.receive (r : Requester) (asked : Option CacheEntry) (d : Delivery) :
    Requester × Except Failure Snapshot × List Log.Record :=
  match r, d with
  | r, .fetched outcome => (r, outcome, [])
  | .own, .http a => (.own, a.outcome, [])
  | .client c, .http a =>
    let (c, outcome, log) := c.receive asked a
    (.client c, outcome, log)

/-- Which of a client's cached data sets a fetch that has returned comes to. -/
def Requester.numberOf (r : Requester) (asked : Option CacheEntry) (d : Delivery) : Option Nat :=
  match r, d with
  | .client c, .http a => c.numberOf asked a
  | _, _ => none

def Requester.clearItem (r : Requester) (number : Nat) (kind : Kind) (key : CodePoints) :
    Requester :=
  match r with
  | .own => .own
  | .client c => .client (c.clearItem number kind key)

/-- How much of the call stack calls out may take for a poll to begin from inside them. -/
def mostLoad : Nat := 989

namespace Machine

def record (m : Machine τ κ) (e : Event τ κ) : Machine τ κ := { m with journal := e :: m.journal }

def log (m : Machine τ κ) (r : Log.Record) : Machine τ κ := m.record (.logged r)

def logAll (m : Machine τ κ) (rs : List Log.Record) : Machine τ κ := rs.foldl log m

def push (m : Machine τ κ) (tasks : List (Task τ κ)) : Machine τ κ :=
  { m with stack := tasks ++ m.stack }

def give (m : Machine τ κ) (reading : Reading τ κ) : Machine τ κ := { m with reading }

def calledOut (m : Machine τ κ) (callee : Callee) : Machine τ κ :=
  { m with callouts := m.callouts + 1, load := m.load + callee.load }

def leave (m : Machine τ κ) (callee : Callee) : Machine τ κ :=
  { m with load := m.load - callee.load }

def setClock [Time τ] (m : Machine τ κ) (t : τ) : Machine τ κ := { m with clock := Time.kept t }

def wallClock [Time τ] (w : World τ κ) (m : Machine τ κ) : τ := w.epoch + m.clock

/-- Resolves the handle and calls the callbacks that were waiting, then goes on. -/
def resolve (m : Machine τ κ) (r : Resolution τ) (rest : List (Task τ κ)) : Machine τ κ :=
  match m.sync.handle.resolve r with
  | .error refusal => m.give (.refused refusal)
  | .ok (handle, callbacks) =>
    { m with sync := { m.sync with handle } }.push (callbacks.map Task.invoke ++ rest)

def start [Time τ] (w : World τ κ) (m : Machine τ κ) : Machine τ κ :=
  match m.sync.begin? (m.wallClock w) with
  | none => m.give (.refused (.cannotStart m.sync.state))
  | some (sync, c) =>
    (({ m with sync }.record (.changed m.clock c)).log (startLog w.interval)).push
      [.notify c, .launch, .giveHandle]

/-- The requester is closed right away unless a fetch is under way. -/
def close [Time τ] (w : World τ κ) (m : Machine τ κ) : Machine τ κ :=
  match m.sync.close? (m.wallClock w) with
  | none => m.give .nothing
  | some (sync, c) =>
    (({ m with sync }.record (.changed m.clock c)).log stopLog).push
      ((if sync.fetching then [] else [Task.closeRequester])
        ++ [Task.notify c, Task.give .nothing])

def addCallback (m : Machine τ κ) (k : κ) : Machine τ κ :=
  let (handle, callbacks) := m.sync.handle.addCallback k
  { m with sync := { m.sync with handle } }.push (callbacks.map Task.invoke ++ [Task.give .nothing])

def readingOfResult : Option (Except (Refusal τ) (Outcome τ)) → Reading τ κ
  | none => .endless
  | some (.error r) => .refused r
  | some (.ok o) => .outcome o

def readingOfItem : Except Store.Reader.Fault Json.Value → Reading τ κ
  | .error f => .refused (.reader f)
  | .ok v => .item v

/-- The machine after an item of the store has been emptied: if the store shares its items with a
cached data set, the item is emptied wherever that one is held. -/
def clearShared (m : Machine τ κ) (kind : Kind) (key : CodePoints) : Machine τ κ :=
  match m.shared with
  | none => m
  | some n =>
    { m with
      requester := m.requester.clearItem n kind key
      stack := m.stack.map (·.clearItem n kind key) }

/-- An item that is handed out to be emptied may be a cached one too. -/
def get (m : Machine τ κ) (kind : Kind) (key : CodePoints) (reader : Store.Reader) : Machine τ κ :=
  let (store, answer, log) := m.store.get kind key reader
  let m := if reader = .clear then m.clearShared kind key else m
  ({ m with store }.logAll log).give (readingOfItem answer)

def perform [Time τ] [BEq κ] (w : World τ κ) (m : Machine τ κ) : Op τ κ → Machine τ κ
  | .start => m.start w
  | .close => m.close w
  | .within ops => m.push [.gather ops []]
  | .state => m.give (.state m.sync.state m.sync.initialized m.store.initialized)
  | .status => m.give (.status m.sync.status)
  | .addListener k =>
    { m with sync := { m.sync with listeners := m.sync.listeners.add k } }.give .nothing
  | .removeListener k =>
    { m with sync := { m.sync with listeners := m.sync.listeners.remove k } }.give .nothing
  | .handle => m.give (.handle m.sync.handle)
  | .wait timeout => m.give (((m.sync.handle.wait timeout).map Reading.flag).getD .endless)
  | .result timeout => m.give (readingOfResult (m.sync.handle.result timeout))
  | .addCallback k => m.addCallback k
  | .get kind key reader => m.get kind key reader
  | .all kind reader => m.give (readingOfItem (m.store.all kind reader))
  | .storeInitialized => m.give (.flag m.store.initialized)
  | .advance amount =>
    let m := m.setClock (m.clock + amount)
    m.give (.time m.clock)
  | .poll own => if mostLoad < m.load then m.give (.refused .tooDeep) else m.push [.poll own]

/-- The next call within a use of the synchronizer; the last one closes it. -/
def gather (m : Machine τ κ) (ops : List (Op τ κ)) (done : List (Reading τ κ)) : Machine τ κ :=
  match ops with
  | [] => m.push [.perform .close, .give (.list (done ++ [.flag true]))]
  | op :: rest => m.push [.perform op, .collect rest done]

/-- A notification that a later one has overtaken is dropped. -/
def notify (m : Machine τ κ) (c : Change τ) : Machine τ κ :=
  match m.sync.admit? c.number with
  | none => m.log (supersededLog c.status.state)
  | some sync =>
    ({ m with sync }.record (.delivering c sync.listeners)).push
      (sync.listeners.map fun k => .tell k c)

def tell (w : World τ κ) (m : Machine τ κ) (k : κ) (c : Change τ) : Machine τ κ :=
  ((m.record (.toldListener k c)).calledOut .listener).push
    (scriptTasks (w.listener m.callouts k c.status) .listenerRaised ++ [.leave .listener])

def invoke (w : World τ κ) (m : Machine τ κ) (k : κ) : Machine τ κ :=
  ((m.record (.toldCallback k m.sync.handle)).calledOut .callback).push
    (scriptTasks (w.callback m.callouts k m.sync.handle) .callbackRaised ++ [.leave .callback])

def closeRequester (w : World τ κ) (m : Machine τ κ) : Machine τ κ :=
  ((m.record .closeRequester).calledOut .closing).push
    (scriptTasks (w.closing m.callouts) .closingRaised ++ [.leave .closing])

/-- The request by which the next fetch is made, if it is made over HTTP. -/
def request? (m : Machine τ κ) : Option Request :=
  match m.requester with
  | .own => none
  | .client c => some c.request

/-- The response to the next fetch: its own, or the service's next one. -/
def respond (w : World τ κ) (m : Machine τ κ) (own : Option (Response τ (Op τ κ))) :
    Machine τ κ × Response τ (Op τ κ) :=
  match own with
  | some r => (m, r)
  | none => ({ m with responses := m.responses + 1 }, w.response m.responses)

def poll [Time τ] (w : World τ κ) (m : Machine τ κ) (own : Option (Response τ (Op τ κ))) :
    Machine τ κ :=
  match m.sync.poll? with
  | none => m.give .nothing
  | some sync =>
    let (m, r) := m.respond w own
    (({ m with sync }.record (.fetch m.clock m.request?)).calledOut .fetch).push
      (Task.pass (m.clock + r.duration) .work :: callTasks r.during
        ++ [Task.leave .fetch, Task.receive r.delivery m.requester.cached])

def recover (m : Machine τ κ) (f : Failure) (reason : ErrorInfo τ) : Machine τ κ :=
  match m.sync.recover? reason with
  | none => m.give .nothing
  | some (sync, c) =>
    (({ m with sync }.record (.changed m.clock c)).log f.report).push [.notify c, .give .nothing]

/-- The handle fails with the first fatal failure unless a snapshot has been applied before. -/
def giveUp [Time τ] (w : World τ κ) (m : Machine τ κ) (f : Failure) (reason : ErrorInfo τ) :
    Machine τ κ :=
  match m.sync.giveUp? reason (m.wallClock w) with
  | none => m.give .nothing
  | some (sync, c) =>
    let after := ({ m with sync }.record (.changed m.clock c)).log f.report
    if m.sync.state = .initialized then after.push [.notify c, .give .nothing]
    else after.resolve (.failed reason) [.notify c, .give .nothing]

/-- A snapshot is handed to the store if polls still have an effect. -/
def apply (w : World τ κ) (m : Machine τ κ) (s : Snapshot) (cached : Option Nat) :
    Machine τ κ :=
  if m.sync.state.isActive then
    let script := w.write m.callouts
    ((m.record (.write s)).calledOut .write).push
      (callTasks script.before ++ [.write s cached script])
  else (m.log (discardLog m.sync.state)).give .nothing

/-- A fetch returns. One that was closed meanwhile has no effect but that the requester is closed
now. -/
def receive [Time τ] (w : World τ κ) (m : Machine τ κ) (d : Delivery)
    (asked : Option CacheEntry) : Machine τ κ :=
  let (requester, outcome, log) := m.requester.receive asked d
  let cached := m.requester.numberOf asked d
  let m :=
    ({ m with requester, sync := m.sync.returned }.logAll log).record (.fetched m.clock outcome)
  if m.sync.state = .closed then
    (m.log discardAfterCloseLog).push [.closeRequester, .give .nothing]
  else
    match outcome with
    | .ok s => m.apply w s cached
    | .error f =>
      let reason := f.info (m.wallClock w)
      if f.isFatal then m.giveUp w f reason else m.recover f reason

def write (m : Machine τ κ) (s : Snapshot) (cached : Option Nat) (script : WriteScript (Op τ κ)) :
    Machine τ κ :=
  match script.raises with
  | some message => (m.leave .write).give (.refused (.storeRefused message))
  | none =>
    let m := { m with store := m.store.init s.allData, shared := cached }
    (m.logAll (Store.initLog s.allData)).push (callTasks script.after ++ [.leave .write, .written])

def written [Time τ] (w : World τ κ) (m : Machine τ κ) : Machine τ κ :=
  match m.sync.initialize? (m.wallClock w) with
  | none => m.give .nothing
  | some (sync, c) =>
    (({ m with sync }.record (.changed m.clock c)).log initializedLog).resolve .succeeded
      [.notify c, .give .nothing]

def callDue [Time τ] (m : Machine τ κ) (e : τ × Op τ κ) (rest : Agenda τ (Op τ κ))
    (resume : Task τ κ) : Machine τ κ :=
  let m := { m with agenda := rest }.setClock (Time.latest m.clock e.1)
  (m.record (.called m.clock e.2)).push [.perform e.2, .conclude e.2, resume]

/-- A wait ends early once the polling task is stopped, and idle time once it is launched. -/
def endsEarly (m : Machine τ κ) : Span → Bool
  | .lead => m.sync.launched
  | .wait => m.sync.stopped
  | .work | .rest => false

/-- Time passes from call to call; beyond the horizon the simulation ends. -/
def pass [Time τ] (w : World τ κ) (m : Machine τ κ) (target : τ) (span : Span) : Machine τ κ :=
  if m.endsEarly span then m
  else
    match m.agenda.due? (span.bound target w.horizon) with
    | some (e, rest) => m.callDue e rest (.pass target span)
    | none =>
      if span.exceeds target w.horizon then { m with stack := [] } else m.setClock target

/-- Time passes up to the next call, one after the other, until the polling task is launched. -/
def main [Time τ] (w : World τ κ) (m : Machine τ κ) : Machine τ κ :=
  if m.sync.launched then { m with begun := true }.push [.await m.clock, .rest]
  else
    match m.agenda.due? w.horizon with
    | some (e, _) => m.push [.pass (Time.latest m.clock e.1) .lead, .main]
    | none => m

def rest [Time τ] (w : World τ κ) (m : Machine τ κ) : Machine τ κ :=
  m.push [.pass (Time.latest m.clock w.horizon) .rest]

def await [Time τ] (m : Machine τ κ) (next : τ) : Machine τ κ :=
  if m.sync.stopped then m.record (.ended m.clock)
  else
    let t := Schedule.delay next m.clock
    (m.record (.wait t)).push [.pass (m.clock + t) .wait, .wake]

def wake [Time τ] (w : World τ κ) (m : Machine τ κ) : Machine τ κ :=
  if m.sync.stopped then m.record (.ended m.clock)
  else m.push [.poll none, .ran, .await (Schedule.following m.clock w.interval)]

/-- An exception out of a poll is logged, and the schedule goes on. -/
def ran [Time τ] (m : Machine τ κ) : Machine τ κ :=
  match m.reading with
  | .refused r => m.log (Schedule.actionLog taskName r.message)
  | _ => m

def execute [Time τ] [BEq κ] (w : World τ κ) (m : Machine τ κ) : Task τ κ → Machine τ κ
  | .perform op => m.perform w op
  | .give reading => m.give reading
  | .report op => m.record (.answered op m.reading)
  | .conclude op => m.record (.returned op m.reading)
  | .gather ops done => m.gather ops done
  | .collect ops done => m.push [.gather ops (done ++ [m.reading])]
  | .launch => { m with sync := { m.sync with launched := true } }
  | .giveHandle => m.give (.started m.sync.handle)
  | .closeRequester => m.closeRequester w
  | .notify c => m.notify c
  | .tell k c => m.tell w k c
  | .invoke k => m.invoke w k
  | .listenerRaised message => m.log (Listeners.raisedLog listenersName message)
  | .callbackRaised message => m.log (Completion.raisedLog message)
  | .closingRaised message => m.log (closingLog message)
  | .poll own => m.poll w own
  | .receive d asked => m.receive w d asked
  | .write s cached script => m.write s cached script
  | .written => m.written w
  | .pass target span => m.pass w target span
  | .leave callee => m.leave callee
  | .main => m.main w
  | .rest => m.rest w
  | .await next => m.await next
  | .wake => m.wake w
  | .ran => m.ran

def step [Time τ] [BEq κ] (w : World τ κ) (m : Machine τ κ) : Option (Machine τ κ) :=
  match m.stack with
  | [] => none
  | task :: rest => some ({ m with stack := rest }.execute w task)

def run [Time τ] [BEq κ] (w : World τ κ) : Nat → Machine τ κ → Machine τ κ
  | 0, m => m
  | fuel + 1, m =>
    match m.step w with
    | none => m
    | some n => run w fuel n

def create [Time τ] (w : World τ κ) (requester : Requester) : Machine τ κ where
  sync := .create (w.epoch + 0)
  store := .empty
  shared := none
  requester := requester
  clock := 0
  agenda := []
  stack := []
  reading := .nothing
  journal := []
  callouts := 0
  load := 0
  responses := 0
  begun := false

/-- A call from outside while nothing is in progress. -/
def call [Time τ] [BEq κ] (w : World τ κ) (fuel : Nat) (m : Machine τ κ) (op : Op τ κ) :
    Machine τ κ :=
  run w fuel { m with stack := [.perform op], reading := .nothing }

/-- A whole run with calls at given moments, the polling task included. -/
def timeline [Time τ] [BEq κ] (w : World τ κ) (fuel : Nat) (requester : Requester)
    (calls : List (τ × Op τ κ)) : Machine τ κ :=
  run w fuel { create w requester with agenda := .ofList calls, stack := [.main] }

end Machine

def checkInterval [Time τ] (interval : Option τ) : Except (Refusal τ) τ :=
  match interval with
  | none => .error (.badInterval none)
  | some t => if t ≤ 0 then .error (.badInterval (some t)) else .ok t

end FlagPoll.Synchronizer
