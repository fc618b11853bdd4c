import FlagPoll.Json.Basic

/-!
# FlagPoll.Snapshot

Snapshots: all flag and segment definitions as one poll saw them.

* `Snapshot.ofJson` — accepts an object whose collections hold items with a string key and an
  integer version, and otherwise names the first fault.
* `Snapshot.same`   — equality of what two snapshots hold, whatever the order.
-/

namespace FlagPoll

open Json (Value Members)

inductive Kind where
  | flags
  | segments
  deriving DecidableEq, Repr

namespace Kind

/-- The name under which a store keeps items of this kind. -/
def storeName : Kind → String
  | .flags => "features"
  | .segments => "segments"

/-- The member of a polling response that holds items of this kind. -/
def payloadName : Kind → String
  | .flags => "flags"
  | .segments => "segments"

end Kind

abbrev Items := Members

def Items.clearItem (items : Items) (key : CodePoints) : Items :=
  items.map fun (k, v) => if k = key then (k, v.emptied) else (k, v)

structure Snapshot where
  flags : Items
  segments : Items
  deriving Inhabited, Repr

namespace Snapshot

def empty : Snapshot := ⟨[], []⟩

def items (s : Snapshot) : Kind → Items
  | .flags => s.flags
  | .segments => s.segments

def size (s : Snapshot) : Nat := s.flags.length + s.segments.length

def clearItem (s : Snapshot) (kind : Kind) (key : CodePoints) : Snapshot :=
  match kind with
  | .flags => { s with flags := s.flags.clearItem key }
  | .segments => { s with segments := s.segments.clearItem key }

/-- The snapshot as a store takes it: the items of each kind. -/
def allData (s : Snapshot) : List (Kind × Items) := [(.flags, s.flags), (.segments, s.segments)]

def same (a b : Snapshot) : Bool :=
  (Value.object a.flags).same (.object b.flags)
    && (Value.object a.segments).same (.object b.segments)

inductive Lack where
  | shape
  | key
  | version
  deriving DecidableEq, Repr

def Lack.message : Lack → String
  | .shape => "was not a JSON object"
  | .key => "has no key"
  | .version => "has no valid version"

inductive Fault where
  | notObject
  | collection (kind : Kind)
  | item (kind : Kind) (key : CodePoints) (lack : Lack)
  deriving DecidableEq, Repr

def Fault.message : Fault → String
  | .notObject => "polling response was not a JSON object"
  | .collection kind => s!"'{kind.payloadName}' in polling response was not a JSON object"
  | .item kind key lack => s!"{kind.storeName} item '{key.toString}' {lack.message}"

/-- The first thing that an item lacks, its key looked at before its version. -/
def lack? : Value → Option Lack
  | .object ms =>
    match Members.get? ms "key", Members.get? ms "version" with
    | some (.string _), some (.int _) => none
    | some (.string _), _ => some .version
    | _, _ => some .key
  | _ => some .shape

def firstFault? (kind : Kind) : Items → Option Fault
  | [] => none
  | (key, item) :: rest =>
    match lack? item with
    | some l => some (.item kind key l)
    | none => firstFault? kind rest

/-- The items of one kind in a polling response; a missing collection is empty. -/
def itemsOf (payload : Members) (kind : Kind) : Except Fault Items :=
  match payload.get? kind.payloadName with
  | none => .ok []
  | some (.object items) =>
    match firstFault? kind items with
    | none => .ok items
    | some f => .error f
  | some _ => .error (.collection kind)

/-- Flags are looked at before segments. -/
def ofJson : Value → Except Fault Snapshot
  | .object payload => do
    let flags ← itemsOf payload .flags
    let segments ← itemsOf payload .segments
    return ⟨flags, segments⟩
  | _ => .error .notObject

theorem size_empty : empty.size = 0 := rfl

theorem lookup_allData (s : Snapshot) (kind : Kind) :
    s.allData.lookup kind = some (s.items kind) := by
  cases kind <;> rfl

end Snapshot
end FlagPoll
