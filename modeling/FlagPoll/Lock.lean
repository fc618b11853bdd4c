/-!
# FlagPoll.Lock

A lock shared by any number of readers or held by one writer; a waiting writer keeps new readers
out. Threads take their steps in any order.

* `next?`  — one step of one thread: asking, looking whether it may enter, leaving.
* `settle` — every thread that is awake looks, in the order in which they came.
-/

namespace FlagPoll

namespace Lock

inductive Mode where
  | read
  | write
  deriving DecidableEq, Repr

/-- Where a thread is that has asked for the lock and not left it. -/
inductive Phase where
  | arriving
  /-- It has looked in vain and waits to be woken. -/
  | sleeping
  /-- It has been woken and has not looked again. -/
  | woken
  | inside
  deriving DecidableEq, Repr

structure Thread (ν : Type) where
  name : ν
  mode : Mode
  phase : Phase
  deriving DecidableEq, Repr

inductive Move (ν : Type) where
  | ask (name : ν) (mode : Mode)
  | look (name : ν)
  /-- Leaving is the same after an exception. -/
  | leave (name : ν)
  deriving DecidableEq, Repr

end Lock

open Lock in
/-- The counters of the lock, and the threads at it, in the order in which they came. -/
structure Lock (ν : Type) where
  readers : Nat
  writerActive : Bool
  writersWaiting : Nat
  threads : List (Thread ν)
  deriving DecidableEq, Repr

namespace Lock

variable {ν : Type}

def free : Lock ν := ⟨0, false, 0, []⟩

def admitsReader (l : Lock ν) : Bool := !l.writerActive && l.writersWaiting = 0

def admitsWriter (l : Lock ν) : Bool := !l.writerActive && l.readers = 0

variable [DecidableEq ν]

def find? (l : Lock ν) (name : ν) : Option (Thread ν) := l.threads.find? (·.name = name)

def setPhase (l : Lock ν) (name : ν) (phase : Phase) : Lock ν :=
  { l with threads := l.threads.map fun t => if t.name = name then { t with phase } else t }

def drop (l : Lock ν) (name : ν) : Lock ν :=
  { l with threads := l.threads.filter fun t => t.name ≠ name }

def wakeAll (l : Lock ν) : Lock ν :=
  { l with
    threads := l.threads.map fun t =>
      if t.phase = .sleeping then { t with phase := .woken } else t }

def lookReader (l : Lock ν) (name : ν) : Lock ν :=
  if l.admitsReader then { l with readers := l.readers + 1 }.setPhase name .inside
  else l.setPhase name .sleeping

def lookWriter (l : Lock ν) (name : ν) : Lock ν :=
  if l.admitsWriter then
    { l with writersWaiting := l.writersWaiting - 1, writerActive := true }.setPhase name .inside
  else l.setPhase name .sleeping

/-- The last reader and every writer wake the sleepers when they leave. -/
def leave (l : Lock ν) (name : ν) : Mode → Lock ν
  | .read =>
    let l := { l with readers := l.readers - 1 }.drop name
    if l.readers = 0 then l.wakeAll else l
  | .write => ({ l with writerActive := false }.drop name).wakeAll

def next? (l : Lock ν) : Move ν → Option (Lock ν)
  | .ask name mode =>
    match l.find? name with
    | some _ => none
    | none => some { l with threads := l.threads ++ [⟨name, mode, .arriving⟩] }
  | .look name =>
    match l.find? name with
    | some ⟨_, .read, .arriving⟩ | some ⟨_, .read, .woken⟩ => some (l.lookReader name)
    | some ⟨_, .write, .arriving⟩ =>
      some ({ l with writersWaiting := l.writersWaiting + 1 }.lookWriter name)
    | some ⟨_, .write, .woken⟩ => some (l.lookWriter name)
    | _ => none
  | .leave name =>
    match l.find? name with
    | some ⟨_, mode, .inside⟩ => some (l.leave name mode)
    | _ => none

def attempt (l : Lock ν) (m : Move ν) : Lock ν := (l.next? m).getD l

/-- Every thread that is awake looks, in the order in which they came. -/
def settle (l : Lock ν) : Lock ν :=
  (l.threads.map (·.name)).foldl (fun l name => l.attempt (.look name)) l

/-- A step from outside, after which the threads settle. -/
def act (l : Lock ν) (m : Move ν) : Lock ν := (l.attempt m).settle

def held (l : Lock ν) : List (Thread ν) := l.threads.filter fun t => t.phase = .inside

def blocked (l : Lock ν) : List (Thread ν) := l.threads.filter fun t => t.phase ≠ .inside

end Lock
end FlagPoll
