import FlagPoll.Agenda
import FlagPoll.Log
import FlagPoll.Refusal

/-!
# FlagPoll.Schedule

Running an action over and over, in virtual time. Runs are spaced from start to start: the next
one begins an interval after the last one began, or at once if the last one took longer.

* `delay`, `following` — how long to wait, and when the run after this one is due.
* `step`, `run`        — a scheduler in its surroundings: calls that come in while time passes.
-/

namespace FlagPoll.Schedule

variable {τ : Type}

def delay [Time τ] (next now : τ) : τ := Time.remaining next now

def following [Time τ] (now interval : τ) : τ := now + interval

def actionLog (name message : String) : Log.Record :=
  ⟨.error, "Unexpected error in " ++ name ++ ": " ++ message⟩

/-- What one run of the action does: it takes some time, may stop the schedule, may raise. -/
structure Run (τ : Type) where
  duration : τ
  stops : Bool
  raises : Option String
  deriving Repr

structure Plan (τ : Type) where
  name : String
  interval : τ
  initialDelay : τ
  runs : Nat → Run τ
  horizon : τ

inductive Op where
  | start
  | stop
  | stopped
  deriving DecidableEq, Repr

inductive Reading (τ : Type) where
  | nothing
  | refused (r : Refusal τ)
  | flag (b : Bool)
  deriving Repr

inductive Event (τ : Type) where
  | called (clock : τ) (op : Op) (reading : Reading τ)
  | wait (t : τ)
  | ran (clock : τ)
  | logged (record : Log.Record)
  | ended (clock : τ)
  deriving Repr

inductive Task (τ : Type) where
  /-- Nothing is in progress: calls come in until the scheduler has been started. -/
  | main
  /-- The scheduler has ended: the rest of the time passes. -/
  | rest
  | await (next : τ)
  | pass (target : τ) (span : Span)
  | wake
  | finish (r : Run τ)
  deriving Repr

/-- A scheduler in its surroundings; the latest event comes first. -/
structure Machine (τ : Type) where
  clock : τ
  agenda : Agenda τ Op
  stopped : Bool
  launched : Bool
  begun : Bool
  turns : Nat
  stack : List (Task τ)
  journal : List (Event τ)

namespace Machine

def start [Time τ] (calls : List (τ × Op)) : Machine τ :=
  ⟨0, .ofList calls, false, false, false, 0, [.main], []⟩

def record (m : Machine τ) (e : Event τ) : Machine τ := { m with journal := e :: m.journal }

def push (m : Machine τ) (tasks : List (Task τ)) : Machine τ :=
  { m with stack := tasks ++ m.stack }

def perform (m : Machine τ) : Op → Machine τ × Reading τ
  | .start =>
    if m.launched then (m, .refused .alreadyLaunched) else ({ m with launched := true }, .nothing)
  | .stop => ({ m with stopped := true }, .nothing)
  | .stopped => (m, .flag m.stopped)

def setClock [Time τ] (m : Machine τ) (t : τ) : Machine τ := { m with clock := Time.kept t }

def callDue [Time τ] (m : Machine τ) (e : τ × Op) (rest : Agenda τ Op) : Machine τ :=
  let m := { m with agenda := rest }.setClock (Time.latest m.clock e.1)
  let (m, reading) := m.perform e.2
  m.record (.called m.clock e.2 reading)

/-- Time passes up to the next call, one after the other, until the scheduler has been started. -/
def main [Time τ] (p : Plan τ) (m : Machine τ) : Machine τ :=
  if m.launched then { m with begun := true }.push [.await (m.clock + p.initialDelay), .rest]
  else
    match m.agenda.due? p.horizon with
    | some (e, _) => m.push [.pass (Time.latest m.clock e.1) .lead, .main]
    | none => m

def rest [Time τ] (p : Plan τ) (m : Machine τ) : Machine τ :=
  m.push [.pass (Time.latest m.clock p.horizon) .rest]

def await [Time τ] (m : Machine τ) (next : τ) : Machine τ :=
  if m.stopped then m.record (.ended m.clock)
  else
    let t := delay next m.clock
    (m.record (.wait t)).push [.pass (m.clock + t) .wait, .wake]

/-- A wait ends early once the scheduler is stopped, and idle time once it is started. -/
def endsEarly (m : Machine τ) : Span → Bool
  | .lead => m.launched
  | .wait => m.stopped
  | .work | .rest => false

/-- Time passes from call to call; beyond the horizon the simulation ends. -/
def pass [Time τ] (p : Plan τ) (m : Machine τ) (target : τ) (span : Span) : Machine τ :=
  if m.endsEarly span then m
  else
    match m.agenda.due? (span.bound target p.horizon) with
    | some (e, rest) => (m.callDue e rest).push [.pass target span]
    | none =>
      if span.exceeds target p.horizon then { m with stack := [] } else m.setClock target

def wake [Time τ] (p : Plan τ) (m : Machine τ) : Machine τ :=
  if m.stopped then m.record (.ended m.clock)
  else
    let r := p.runs m.turns
    ({ m with turns := m.turns + 1 }.record (.ran m.clock)).push
      [.pass (m.clock + r.duration) .work, .finish r, .await (following m.clock p.interval)]

def finish (p : Plan τ) (m : Machine τ) (r : Run τ) : Machine τ :=
  let m := { m with stopped := m.stopped || r.stops }
  match r.raises with
  | none => m
  | some message => m.record (.logged (actionLog p.name message))

def step [Time τ] (p : Plan τ) (m : Machine τ) : Option (Machine τ) :=
  match m.stack with
  | [] => none
  | task :: rest =>
    let m := { m with stack := rest }
    some <| match task with
      | .main => m.main p
      | .rest => m.rest p
      | .await next => m.await next
      | .pass target span => m.pass p target span
      | .wake => m.wake p
      | .finish r => m.finish p r

def run [Time τ] (p : Plan τ) : Nat → Machine τ → Machine τ
  | 0, m => m
  | fuel + 1, m =>
    match m.step p with
    | none => m
    | some n => run p fuel n

end Machine
end FlagPoll.Schedule
