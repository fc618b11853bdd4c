import FlagPoll.Callout
import FlagPoll.Completion.Basic

/-!
# FlagPoll.Completion.Session

Calls on one completion handle, with callbacks that make such calls themselves.

* `step` — one step of a session; the stack holds what is still to be done.
* `run`  — steps until nothing is left to be done.
-/

namespace FlagPoll.Completion

variable {τ κ : Type}

inductive Op (τ κ : Type) where
  | succeed
  | fail (reason : ErrorInfo τ)
  | look
  | wait (timeout : Option τ)
  | result (timeout : Option τ)
  | addCallback (callback : κ)
  deriving Repr

inductive Reading (τ κ : Type) where
  | nothing
  | refused (r : Refusal τ)
  | handle (c : Completion τ κ)
  | flag (b : Bool)
  | outcome (o : Outcome τ)
  | endless
  deriving Repr

inductive Event (τ κ : Type) where
  | called (callback : κ) (shown : Completion τ κ)
  | answered (op : Op τ κ) (reading : Reading τ κ)
  | logged (record : Log.Record)
  deriving Repr

inductive Task (τ κ : Type) where
  | perform (op : Op τ κ)
  | give (reading : Reading τ κ)
  | report (op : Op τ κ)
  | invoke (callback : κ)
  | caught (message : String)
  deriving Repr

/-- A session: the latest event comes first. -/
structure Session (τ κ : Type) where
  handle : Completion τ κ
  stack : List (Task τ κ)
  reading : Reading τ κ
  journal : List (Event τ κ)
  deriving Repr

def scriptTasks (script : Script (Op τ κ)) : List (Task τ κ) :=
  script.ops.flatMap (fun op => [.perform op, .report op])
    ++ (script.raises.map Task.caught).toList

namespace Session

def start : Session τ κ := ⟨.pending, [], .nothing, []⟩

def push (s : Session τ κ) (tasks : List (Task τ κ)) : Session τ κ :=
  { s with stack := tasks ++ s.stack }

def record (s : Session τ κ) (e : Event τ κ) : Session τ κ := { s with journal := e :: s.journal }

def resolve (s : Session τ κ) (r : Resolution τ) : Session τ κ :=
  match s.handle.resolve r with
  | .error refusal => { s with reading := .refused refusal }
  | .ok (handle, callbacks) =>
    { s with handle }.push (callbacks.map Task.invoke ++ [Task.give .nothing])

def perform (s : Session τ κ) : Op τ κ → Session τ κ
  | .succeed => s.resolve .succeeded
  | .fail reason => s.resolve (.failed reason)
  | .look => { s with reading := .handle s.handle }
  | .wait timeout => { s with reading := ((s.handle.wait timeout).map .flag).getD .endless }
  | .result timeout =>
    { s with
      reading :=
        match s.handle.result timeout with
        | none => .endless
        | some (.ok o) => .outcome o
        | some (.error r) => .refused r }
  | .addCallback k =>
    let (handle, callbacks) := s.handle.addCallback k
    { s with handle }.push (callbacks.map Task.invoke ++ [Task.give .nothing])

def step (callees : κ → Script (Op τ κ)) (s : Session τ κ) : Option (Session τ κ) :=
  match s.stack with
  | [] => none
  | task :: rest =>
    let s := { s with stack := rest }
    some <| match task with
      | .perform op => s.perform op
      | .give reading => { s with reading }
      | .report op => s.record (.answered op s.reading)
      | .invoke k => (s.record (.called k s.handle)).push (scriptTasks (callees k))
      | .caught message => s.record (.logged (raisedLog message))

def run (callees : κ → Script (Op τ κ)) : Nat → Session τ κ → Session τ κ
  | 0, s => s
  | fuel + 1, s =>
    match s.step callees with
    | none => s
    | some t => run callees fuel t

def call (callees : κ → Script (Op τ κ)) (fuel : Nat) (s : Session τ κ) (op : Op τ κ) :
    Session τ κ :=
  run callees fuel { s with stack := [.perform op], reading := .nothing }

end Session
end FlagPoll.Completion
