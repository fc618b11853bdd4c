import FlagPoll.Callout
import FlagPoll.Listeners.Basic

/-!
# FlagPoll.Listeners.Session

Calls on one set of listeners, with listeners that make such calls themselves.

A notification calls the listeners that were registered when it began.
-/

namespace FlagPoll.Listeners

variable {κ ν : Type}

inductive Op (κ ν : Type) where
  | add (listener : κ)
  | remove (listener : κ)
  | notify (value : ν)
  deriving Repr

/-- What a session shows. Notifications are numbered in the order in which they begin. -/
inductive Event (κ ν : Type) where
  /-- A notification begins, with the listeners that are registered. -/
  | notifying (notification : Nat) (listeners : List κ) (value : ν)
  | called (notification : Nat) (listener : κ) (value : ν)
  | answered (op : Op κ ν)
  | logged (record : Log.Record)
  deriving Repr

inductive Task (κ ν : Type) where
  | perform (op : Op κ ν)
  | report (op : Op κ ν)
  | deliver (notification : Nat) (listener : κ) (value : ν)
  | caught (message : String)
  deriving Repr

/-- A session: the latest event comes first. -/
structure Session (κ ν : Type) where
  description : String
  listeners : Listeners κ
  notifications : Nat
  /-- How many calls to listeners there have been; a listener may act differently each time. -/
  calls : Nat
  stack : List (Task κ ν)
  journal : List (Event κ ν)
  deriving Repr

def scriptTasks (script : Script (Op κ ν)) : List (Task κ ν) :=
  script.ops.flatMap (fun op => [.perform op, .report op])
    ++ (script.raises.map Task.caught).toList

namespace Session

def start (description : String) : Session κ ν := ⟨description, [], 0, 0, [], []⟩

def push (s : Session κ ν) (tasks : List (Task κ ν)) : Session κ ν :=
  { s with stack := tasks ++ s.stack }

def record (s : Session κ ν) (e : Event κ ν) : Session κ ν := { s with journal := e :: s.journal }

def perform [BEq κ] (s : Session κ ν) : Op κ ν → Session κ ν
  | .add k => { s with listeners := s.listeners.add k }
  | .remove k => { s with listeners := s.listeners.remove k }
  | .notify value =>
    let n := s.notifications
    ({ s with notifications := n + 1 }.record (.notifying n s.listeners value)).push
      (s.listeners.map fun k => .deliver n k value)

def step [BEq κ] (callees : Nat → κ → ν → Script (Op κ ν)) (s : Session κ ν) :
    Option (Session κ ν) :=
  match s.stack with
  | [] => none
  | task :: rest =>
    let s := { s with stack := rest }
    some <| match task with
      | .perform op => s.perform op
      | .report op => s.record (.answered op)
      | .deliver n k value =>
        ({ s with calls := s.calls + 1 }.record (.called n k value)).push
          (scriptTasks (callees s.calls k value))
      | .caught message => s.record (.logged (raisedLog s.description message))

def run [BEq κ] (callees : Nat → κ → ν → Script (Op κ ν)) : Nat → Session κ ν → Session κ ν
  | 0, s => s
  | fuel + 1, s =>
    match s.step callees with
    | none => s
    | some t => run callees fuel t

def call [BEq κ] (callees : Nat → κ → ν → Script (Op κ ν)) (fuel : Nat) (s : Session κ ν)
    (op : Op κ ν) : Session κ ν :=
  run callees fuel { s with stack := [.perform op] }

end Session
end FlagPoll.Listeners
