/-!
# FlagPoll.Sorting.Search

Looking for a place by questions, each of which may be refused.

* `bisect` — halves a range.
* `gallop` — strides of growing length away from some place, and halves the last of them.

Where the answers are "no" up to some place and "yes" from there on, both find that place. Which
questions they ask, and in which order, is fixed for other answers too.
-/

namespace FlagPoll.Sorting

variable {ε : Type}

/-- The place from `l` up to `r` at which the answers turn to "yes". -/
def bisect (ask : Nat → Except ε Bool) (l r : Nat) : Except ε Nat :=
  if l < r then
    match ask ((l + r) / 2) with
    | .error e => .error e
    | .ok true => bisect ask l ((l + r) / 2)
    | .ok false => bisect ask ((l + r) / 2 + 1) r
  else .ok l
termination_by r - l
decreasing_by all_goals omega

/-- Strides below a limit, each one more than twice the one before, as long as the answers are
"yes": the last stride that was, and the one that ended it. -/
def strides (ask : Nat → Except ε Bool) (limit last next : Nat) : Except ε (Nat × Nat) :=
  if next < limit then
    match ask next with
    | .error e => .error e
    | .ok true => strides ask limit next (2 * next + 1)
    | .ok false => .ok (last, next)
  else .ok (last, limit)
termination_by limit - next
decreasing_by omega

/-- The place up to `size` at which the answers turn to "yes", looked for from `start` on. -/
def gallop (ask : Nat → Except ε Bool) (size start : Nat) : Except ε Nat := do
  if ← ask start then
    let (last, next) ← strides (fun k => ask (start - k)) (start + 1) 0 1
    bisect ask (start + 1 - next) (start - last)
  else
    let (last, next) ← strides (fun k => (ask (start + k)).map not) (size - start) 0 1
    bisect ask (start + last + 1) (start + next)

end FlagPoll.Sorting
