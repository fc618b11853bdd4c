import FlagPoll.Log
import FlagPoll.Store.Reader

/-!
# FlagPoll.Store

The store that holds the latest snapshot.

* `init`       — replaces the whole contents.
* `get`, `all` — one item, or all items of a kind, handed to a reader. A reader of one item is
  handed the stored item itself and may empty it; a reader of all items is handed a copy.
* `call`       — any of these calls.
-/

namespace FlagPoll

open Json (Value)

structure Store where
  contents : List (Kind × Items)
  initialized : Bool
  deriving Inhabited, Repr

namespace Store

def empty : Store := ⟨[], false⟩

/-- The items of a kind, none if the kind was left out. -/
def items (s : Store) (kind : Kind) : Items := (s.contents.lookup kind).getD []

/-- The item under a key; an item that is null counts as missing. -/
def find? (s : Store) (kind : Kind) (key : CodePoints) : Option Value :=
  (Json.Members.get? (s.items kind) key).filter fun v => !v.isNull

def init (_ : Store) (data : List (Kind × Items)) : Store := ⟨data, true⟩

def initLog (data : List (Kind × Items)) : List Log.Record :=
  data.map fun (kind, items) =>
    ⟨.debug, s!"Initialized '{kind.storeName}' store with {items.length} items"⟩

def missingLog (kind : Kind) (key : CodePoints) : Log.Record :=
  ⟨.debug, s!"Attempted to get missing key {key.toString} in '{kind.storeName}', returning None"⟩

def modify (s : Store) (kind : Kind) (f : Items → Items) : Store :=
  { s with
    contents := s.contents.map fun (k, items) => if k = kind then (k, f items) else (k, items) }

def clearItem (s : Store) (kind : Kind) (key : CodePoints) : Store :=
  s.modify kind (·.clearItem key)

/-- Hands out one item; a missing one is handed out as null. -/
def get (s : Store) (kind : Kind) (key : CodePoints) (r : Reader) :
    Store × Except Reader.Fault Value × List Log.Record :=
  match s.find? kind key with
  | none => (s, r.answer .null, [missingLog kind key])
  | some v => (if r = .clear then s.clearItem kind key else s, r.answer v, [])

/-- Hands out a copy of all items of a kind. -/
def all (s : Store) (kind : Kind) (r : Reader) : Except Reader.Fault Value :=
  r.answer (.object (s.items kind))

inductive Call where
  | init (data : List (Kind × Items))
  | get (kind : Kind) (key : CodePoints) (reader : Reader)
  | all (kind : Kind) (reader : Reader)
  | initialized
  deriving Repr

inductive Reading where
  | nothing
  | flag (b : Bool)
  | item (v : Value)
  | refused (fault : Reader.Fault)
  deriving Repr

def Reading.ofAnswer : Except Reader.Fault Value → Reading
  | .ok v => .item v
  | .error f => .refused f

/-- The store after a call, what the call returns, and what it logs. -/
def call (s : Store) : Call → Store × Reading × List Log.Record
  | .init data => (s.init data, .nothing, initLog data)
  | .get kind key reader =>
    let (s, answer, log) := s.get kind key reader
    (s, .ofAnswer answer, log)
  | .all kind reader => (s, .ofAnswer (s.all kind reader), [])
  | .initialized => (s, .flag s.initialized, [])

theorem initialized_init (s : Store) (data : List (Kind × Items)) :
    (s.init data).initialized = true := rfl

theorem items_init (s : Store) (data : List (Kind × Items)) (kind : Kind) :
    (s.init data).items kind = (data.lookup kind).getD [] := rfl

end Store
end FlagPoll
