import FlagPoll.Sorting.Merge

/-!
# FlagPoll.Sorting.Runs

Sorting by the runs that a list has already, with comparisons that may be refused. Equal items
stay in the order in which they came.

* `nextRun` — the rising or strictly falling run at the front of a list; a short one is made longer
  item by item.
* `sort`    — merges runs as they come, those of the deepest node of a balanced tree first.

If items are not in a total order the outcome still depends on nothing but the answers: which
items are compared, and in which order, is part of what `sort` is.
-/

namespace FlagPoll.Sorting

variable {ε α : Type}

/-- The rest of a rising run whose latest item is given, and what follows it. -/
def rising (below : Below ε α) (run : List α) (last : α) : List α → Except ε (List α × List α)
  | [] => .ok (run.reverse, [])
  | x :: rest =>
    match below x last with
    | .error e => .error e
    | .ok true => .ok (run.reverse, x :: rest)
    | .ok false => rising below (x :: run) x rest

/-- The rest of a strictly falling run, which is turned round. -/
def falling (below : Below ε α) (run : List α) (last : α) : List α → Except ε (List α × List α)
  | [] => .ok (run, [])
  | x :: rest =>
    match below x last with
    | .error e => .error e
    | .ok true => falling below (x :: run) x rest
    | .ok false => .ok (run, x :: rest)

/-- The run at the front of a list, in rising order, and what follows it. -/
def naturalRun (below : Below ε α) : List α → Except ε (List α × List α)
  | x :: y :: rest => do
    if ← below y x then falling below [y, x] y rest else rising below [y, x] y rest
  | xs => .ok (xs, [])

/-- Puts an item behind those of a run that are not above it. -/
def insert (below : Below ε α) (run : List α) (x : α) : Except ε (List α) := do
  let n ← bisect (askAt (below x) run) 0 run.length
  return run.take n ++ x :: run.drop n

/-- A run of at least `least` items if there are as many. -/
def nextRun (below : Below ε α) (least : Nat) (xs : List α) : Except ε (List α × List α) := do
  let (run, rest) ← naturalRun below xs
  let missing := least - run.length
  return (← (rest.take missing).foldlM (insert below) run, rest.drop missing)

/-- The length below which runs are made longer: the length of the list itself, halved until it is
below 64 and rounded up. -/
def leastRun (size carry : Nat) : Nat :=
  if size < 64 then size + carry else leastRun (size / 2) (max carry (size % 2))
termination_by size
decreasing_by omega

/-- A run that waits to be merged, and the depth at which the boundary behind it stands. -/
structure Pending (α : Type) where
  run : List α
  depth : Nat

/-- The first binary digit in which `a / (2 * size)` and `b / (2 * size)` differ: the depth of the
boundary between two runs whose middles are at `a / 2` and `b / 2`. -/
def boundaryDepth (size : Nat) : Nat → Nat → Nat → Nat
  | 0, _, _ => 0
  | fuel + 1, a, b =>
    if size ≤ a then 1 + boundaryDepth size fuel (2 * (a - size)) (2 * (b - size))
    else if size ≤ b then 1
    else 1 + boundaryDepth size fuel (2 * a) (2 * b)

/-- Merges the latest runs as long as a boundary between them is deeper than the newest one. -/
def mergeDeeper (below : Below ε α) (depth patience : Nat) (pending : List (Pending α)) :
    Except ε (List (Pending α) × Nat) :=
  match pending with
  | p :: q :: rest =>
    if depth < q.depth then
      match merge below patience q.run p.run with
      | .error e => .error e
      | .ok (run, patience) => mergeDeeper below depth patience (⟨run, q.depth⟩ :: rest)
    else .ok (pending, patience)
  | _ => .ok (pending, patience)
termination_by pending.length
decreasing_by simp

/-- Merges all runs, the latest ones first unless the one before them is the shorter partner. -/
def mergeAll (below : Below ε α) (patience : Nat) (pending : List (Pending α)) :
    Except ε (List α) :=
  match pending with
  | [] => .ok []
  | [p] => .ok p.run
  | [p, q] => (merge below patience q.run p.run).map (·.1)
  | p :: q :: r :: rest =>
    if r.run.length < p.run.length then
      match merge below patience r.run q.run with
      | .error e => .error e
      | .ok (run, patience) => mergeAll below patience (p :: ⟨run, r.depth⟩ :: rest)
    else
      match merge below patience q.run p.run with
      | .error e => .error e
      | .ok (run, patience) => mergeAll below patience (⟨run, q.depth⟩ :: r :: rest)
termination_by pending.length
decreasing_by all_goals simp

/-- A new run that begins at `start` in a list of `size` items comes to those that wait. -/
def push (below : Below ε α) (size start patience : Nat) (pending : List (Pending α))
    (run : List α) : Except ε (List (Pending α) × Nat) := do
  match pending with
  | [] => return ([⟨run, 0⟩], patience)
  | p :: _ =>
    let depth := boundaryDepth size size (2 * start - p.run.length) (2 * start + run.length)
    let (merged, patience) ← mergeDeeper below depth patience pending
    match merged with
    | [] => return ([⟨run, 0⟩], patience)
    | q :: rest => return (⟨run, 0⟩ :: { q with depth } :: rest, patience)

/-- Cuts a list into runs and merges them; no run is empty. -/
def sortRuns (below : Below ε α) (size : Nat) :
    Nat → Nat → Nat → List (Pending α) → List α → Except ε (List α)
  | fuel + 1, start, patience, pending, x :: xs => do
    let (run, rest) ← nextRun below (leastRun size 0) (x :: xs)
    let (pending, patience) ← push below size start patience pending run
    sortRuns below size fuel (start + run.length) patience pending rest
  | _, _, patience, pending, _ => mergeAll below patience pending

def sort (below : Below ε α) (xs : List α) : Except ε (List α) :=
  sortRuns below xs.length xs.length 0 leastSkipped [] xs

end FlagPoll.Sorting
