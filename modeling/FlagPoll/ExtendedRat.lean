/-!
# FlagPoll.ExtendedRat

Exact values of numbers: the rationals with two infinities and an undefined value.

* `lt`, `le` — the order; the undefined value is neither below nor above anything.
* `same`    — equality of values; the undefined value differs from itself.
-/

namespace FlagPoll

inductive ExtendedRat where
  | finite (q : Rat)
  | infinite (negative : Bool)
  | undefined
  deriving DecidableEq, Repr

namespace ExtendedRat

def lt : ExtendedRat → ExtendedRat → Bool
  | .undefined, _ => false
  | _, .undefined => false
  | .finite a, .finite b => a < b
  | .finite _, .infinite t => !t
  | .infinite s, .finite _ => s
  | .infinite s, .infinite t => s && !t

def same : ExtendedRat → ExtendedRat → Bool
  | .undefined, _ => false
  | a, b => a == b

def le (a b : ExtendedRat) : Bool := a.lt b || a.same b

theorem same_self_iff (a : ExtendedRat) : a.same a = true ↔ a ≠ .undefined := by
  cases a <;> simp [same]

theorem lt_finite (a b : Rat) : lt (.finite a) (.finite b) = true ↔ a < b := by
  simp [lt]

theorem not_lt_undefined (a : ExtendedRat) : a.lt .undefined = false := by
  cases a <;> rfl

theorem undefined_not_lt (a : ExtendedRat) : lt .undefined a = false := by
  cases a <;> rfl

end ExtendedRat
end FlagPoll
