import FlagPoll.ExtendedRat
import FlagPoll.Schedule
import Mathlib.Algebra.Order.Ring.Rat
import Mathlib.Tactic.Linarith
import Mathlib.Tactic.Ring

/-!
# FlagPoll.Proofs.ExactTime

Clocks that keep every moment exactly as it is.

* `Rat`         — moments that are always finite.
* `ExtendedRat` — the values of numbers as moments, so that an interval may be infinite or undefined.
* `delay_exact` — whoever waits for a moment goes on at that moment, or at once if it has come.
-/

namespace FlagPoll

open Time Schedule

/-! ## Rational moments -/

instance Rat.instTime : Time Rat where
  decideLt := inferInstance
  decideLe := inferInstance
  text := toString
  kept := id

namespace Time

theorem latest_rat (a b : Rat) : latest a b = max a b := by
  unfold latest
  split
  · rename_i h
    exact (max_eq_right (le_of_lt h)).symm
  · rename_i h
    exact (max_eq_left (not_lt.mp h)).symm

@[simp] theorem kept_rat (t : Rat) : kept t = t := rfl

/-- Whoever waits for a moment goes on at that moment, or at once if it has come. -/
theorem delay_exact (now next : Rat) : now + delay next now = latest now next := by
  rw [delay, remaining, latest_rat, latest_rat]
  change now + max 0 (next - now) = max now next
  rw [← max_add_add_left, add_zero, add_sub_cancel]

end Time

/-! ## Values of numbers as moments -/

namespace ExtendedRat

def add : ExtendedRat → ExtendedRat → ExtendedRat
  | .finite a, .finite b => .finite (a + b)
  | .undefined, _ | _, .undefined => .undefined
  | .infinite s, .finite _ | .finite _, .infinite s => .infinite s
  | .infinite s, .infinite t => if s = t then .infinite s else .undefined

def neg : ExtendedRat → ExtendedRat
  | .finite a => .finite (-a)
  | .infinite s => .infinite !s
  | .undefined => .undefined

def text : ExtendedRat → String
  | .finite a => toString a
  | .infinite s => if s then "-inf" else "inf"
  | .undefined => "nan"

instance instTime : Time ExtendedRat where
  zero := .finite 0
  add := add
  sub a b := add a (neg b)
  lt a b := a.lt b = true
  le a b := a.le b = true
  decideLt a b := inferInstanceAs (Decidable (a.lt b = true))
  decideLe a b := inferInstanceAs (Decidable (a.le b = true))
  text := text
  kept := id

theorem lt_iff (a b : ExtendedRat) : a < b ↔ a.lt b = true := Iff.rfl

theorem le_iff (a b : ExtendedRat) : a ≤ b ↔ a.le b = true := Iff.rfl

theorem finite_add (a b : Rat) : finite a + finite b = finite (a + b) := rfl

theorem finite_add_infinite (a : Rat) (negative : Bool) :
    finite a + infinite negative = infinite negative := rfl

theorem finite_le {a b : Rat} : finite a ≤ finite b ↔ a ≤ b := by
  simp [le_iff, le, lt, same, le_iff_lt_or_eq]

theorem latest_eq (a b : ExtendedRat) : latest a b = if a.lt b then b else a := by
  unfold latest
  split <;> rename_i h <;> simp_all [lt_iff]

/-- On a finite clock this holds of every moment, also of one that is infinite or undefined. -/
theorem delay_exact (now : Rat) (next : ExtendedRat) :
    .finite now + delay next (.finite now) = latest (.finite now) next := by
  simp only [delay, remaining, latest_eq]
  change add (.finite now) (if lt (.finite 0) (add next (neg (.finite now))) then
    add next (neg (.finite now)) else .finite 0) = _
  cases next with
  | undefined => simp [add, lt]
  | infinite s => cases s <;> simp [neg, add, lt]
  | finite next =>
    by_cases h : now < next
    · simp [neg, add, lt, h]
    · simp [neg, add, lt, h]

end ExtendedRat
end FlagPoll
