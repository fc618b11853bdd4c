import FlagPoll.Binary64.Text
import FlagPoll.Text.CodePoints

/-!
# FlagPoll.Json.Basic

JSON values. Integers are unbounded and kept apart from binary64 numbers; texts are code points;
an object is a list of members in the order in which their names first appeared.

* `Members.put` — the last value of a name, in the place of the first.
* `same`        — equality of what values stand for: numbers by value, members in any order.
-/

namespace FlagPoll.Json

inductive Value where
  | null
  | bool (b : Bool)
  | int (n : Int)
  | float (x : Binary64)
  | string (s : CodePoints)
  | array (items : List Value)
  | object (members : List (CodePoints × Value))
  deriving Inhabited, Repr

abbrev Members := List (CodePoints × Value)

namespace Members

def get? (ms : Members) (name : CodePoints) : Option Value := ms.lookup name

/-- Replaces the value of a name where it stands, or adds the name at the end. -/
def put (name : CodePoints) (v : Value) : Members → Members
  | [] => [(name, v)]
  | (n, w) :: rest => if n = name then (n, v) :: rest else (n, w) :: put name v rest

/-- Members as they come, later ones replacing earlier ones of the same name. -/
def ofList (ms : Members) : Members := ms.foldl (fun acc (name, v) => put name v acc) []

theorem get?_put_self (name : CodePoints) (v : Value) (ms : Members) :
    get? (put name v ms) name = some v := by
  induction ms with
  | nil => simp [put, get?]
  | cons m rest ih =>
    obtain ⟨n, w⟩ := m
    by_cases h : n = name
    · simp [put, get?, h]
    · have hb : (name == n) = false := by simpa using fun e => h e.symm
      simp only [put, h, if_false, get?, List.lookup_cons, hb]
      exact ih

theorem get?_put_of_ne {name other : CodePoints} (h : other ≠ name) (v : Value) (ms : Members) :
    get? (put name v ms) other = ms.get? other := by
  have hb : (other == name) = false := by simpa using h
  induction ms with
  | nil => simp [put, get?, List.lookup_cons, hb]
  | cons m rest ih =>
    obtain ⟨n, w⟩ := m
    by_cases hn : n = name
    · subst hn; simp [put, get?, List.lookup_cons, hb]
    · simp only [put, hn, if_false, get?, List.lookup_cons]
      split
      · rfl
      · exact ih

theorem mem_of_get? {ms : Members} {name : CodePoints} {v : Value} (h : ms.get? name = some v) :
    (name, v) ∈ ms := by
  obtain ⟨before, after, rfl, -⟩ := List.lookup_eq_some_iff.mp h
  simp

theorem get?_of_mem {ms : Members} (hn : (ms.map Prod.fst).Nodup) {name : CodePoints} {v : Value}
    (h : (name, v) ∈ ms) : ms.get? name = some v := by
  obtain ⟨before, after, rfl⟩ := List.append_of_mem h
  refine List.lookup_eq_some_iff.mpr ⟨before, after, rfl, fun m hm => ?_⟩
  rw [List.map_append, List.nodup_append] at hn
  have other := hn.2.2 m.1 (List.mem_map_of_mem hm) name (by simp)
  simpa using other.symm

theorem put_of_not_mem {name : CodePoints} {ms : Members} (h : name ∉ ms.map Prod.fst) (v : Value) :
    put name v ms = ms ++ [(name, v)] := by
  induction ms with
  | nil => rfl
  | cons m rest ih =>
    simp only [List.map_cons, List.mem_cons, not_or] at h
    rw [put, if_neg (Ne.symm h.1), ih h.2, List.cons_append]

/-- Members of distinct names stay as they come. -/
theorem ofList_of_nodup {ms : Members} (h : (ms.map Prod.fst).Nodup) : ofList ms = ms := by
  have append : ∀ (rest acc : Members), ((acc ++ rest).map Prod.fst).Nodup →
      rest.foldl (fun acc (name, v) => put name v acc) acc = acc ++ rest := by
    intro rest
    induction rest with
    | nil => intro acc _; simp
    | cons m rest ih =>
      obtain ⟨name, v⟩ := m
      intro acc hn
      have fresh : name ∉ acc.map Prod.fst := by
        rw [List.map_append, List.nodup_append] at hn
        exact fun hm => hn.2.2 _ hm _ (by simp) rfl
      simp only [List.foldl_cons, put_of_not_mem fresh]
      rw [ih _ (by simpa using hn), List.append_assoc, List.singleton_append]
  exact append ms [] h

end Members

namespace Value

/-- The value under a name, if this is an object that has it. -/
def get? (v : Value) (name : CodePoints) : Option Value :=
  match v with
  | .object ms => Members.get? ms name
  | _ => none

def isNull : Value → Bool
  | .null => true
  | _ => false

/-- An object or array without its contents; other values have none. -/
def emptied : Value → Value
  | .object _ => .object []
  | .array _ => .array []
  | v => v

/-- Truth values count as the numbers 0 and 1. -/
def number? : Value → Option ExtendedRat
  | .bool b => some (.finite (if b then 1 else 0))
  | .int n => some (.finite n)
  | .float x => some x.value
  | _ => none

def sameNumber (a b : Value) : Bool :=
  match a.number?, b.number? with
  | some x, some y => x.same y
  | _, _ => false

mutual

def same : Value → Value → Bool
  | .null, .null => true
  | .string a, .string b => a = b
  | .array a, .array b => sameItems a b
  | .object a, .object b => a.length = b.length && sameMembers a b
  | a, b => sameNumber a b

def sameItems : List Value → List Value → Bool
  | [], [] => true
  | v :: r, w :: s => same v w && sameItems r s
  | _, _ => false

/-- Whether every member of the first object stands for the same in the second. -/
def sameMembers : Members → Members → Bool
  | [], _ => true
  | (name, v) :: rest, ms =>
    (match ms.lookup name with
      | some w => same v w
      | none => false) && sameMembers rest ms

end

end Value
end FlagPoll.Json
