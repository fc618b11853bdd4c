import FlagPoll.Sorting.Search

/-!
# FlagPoll.Sorting.Merge

Merging two sorted lists that follow each other, by comparisons that may be refused. Of equal
items those of the first list come first.

* `Merging.step` — takes the next item, or many at once where one of the lists keeps winning.
* `merge`        — leaves alone what is in its place already, and merges the rest from the side of
  the shorter list.
-/

namespace FlagPoll.Sorting

variable {ε α : Type}

abbrev Below (ε α : Type) := α → α → Except ε Bool

def askAt (ask : α → Except ε Bool) (xs : List α) (place : Nat) : Except ε Bool :=
  match xs[place]? with
  | some x => ask x
  | none => .ok false

inductive Side where
  | front
  | back
  deriving DecidableEq, Repr

inductive Mode where
  /-- One at a time, with the wins of either list in a row. -/
  | single (left right : Nat)
  /-- Items of the left list are taken up to the place of the right one's next item. -/
  | skipLeft
  /-- Now that item is taken. -/
  | takeRight (left : Nat)
  /-- Items of the right list are taken up to the place of the left one's next item. -/
  | skipRight (left : Nat)
  /-- Now that item is taken. -/
  | takeLeft (left right : Nat)
  /-- Whether it was worthwhile shows in how many items were skipped. -/
  | settle (left right : Nat)
  deriving DecidableEq, Repr

/-- How many items in a row make skipping worthwhile. -/
def leastSkipped : Nat := 7

/-- Two lists in the course of being merged; the next item of each comes first. -/
structure Merging (α : Type) where
  /-- What has been taken, the latest first. -/
  taken : List α
  left : List α
  right : List α
  /-- How many wins in a row end the taking of single items. -/
  patience : Nat
  mode : Mode

namespace Merging

def takeLeft (m : Merging α) (n : Nat) : Merging α :=
  { m with taken := (m.left.take n).reverse ++ m.taken, left := m.left.drop n }

def takeRight (m : Merging α) (n : Nat) : Merging α :=
  { m with taken := (m.right.take n).reverse ++ m.taken, right := m.right.drop n }

def enter (m : Merging α) (mode : Mode) : Merging α := { m with mode }

/-- Nothing is left to be compared: from the front, once the left list is down to its last item or
the right one is used up, and the other way round from the back. -/
def isOver (side : Side) (m : Merging α) : Bool :=
  match side with
  | .front => m.left.length ≤ 1 || m.right.isEmpty
  | .back => m.right.length ≤ 1 || m.left.isEmpty

def result (side : Side) (m : Merging α) : List α :=
  match side with
  | .front => m.taken.reverse ++ m.right ++ m.left
  | .back => m.right.reverse ++ m.left.reverse ++ m.taken

/-- How many items of a list are taken before one at whose sight the answer is "yes". -/
def ahead (side : Side) (ask : α → Except ε Bool) (xs : List α) : Except ε Nat :=
  match side with
  | .front => gallop (askAt ask xs) xs.length 0
  | .back => (gallop (askAt ask xs.reverse) xs.length (xs.length - 1)).map (xs.length - ·)

/-- The next item wins over the other list's once more. -/
def single (m : Merging α) (fromRight : Bool) (left right : Nat) : Merging α :=
  let (l, r) := if fromRight then (0, right + 1) else (left + 1, 0)
  (if fromRight then m.takeRight 1 else m.takeLeft 1).enter
    (if m.patience ≤ l || m.patience ≤ r then .skipLeft else .single l r)

def settle (m : Merging α) (left right : Nat) : Merging α :=
  if leastSkipped ≤ left || leastSkipped ≤ right then
    { m with patience := max 1 (m.patience - 1), mode := .skipLeft }
  else { m with patience := m.patience + 1, mode := .single 0 0 }

def step (below : Below ε α) (side : Side) (m : Merging α) (a b : α) :
    Except ε (Merging α) := do
  match m.mode with
  | .single left right => return m.single ((← below b a) = (side = .front)) left right
  | .skipLeft =>
    let n ← ahead side (below b) m.left
    return (m.takeLeft n).enter (.takeRight n)
  | .takeRight left => return (m.takeRight 1).enter (.skipRight left)
  | .skipRight left =>
    let n ← ahead side (fun x => (below x a).map not) m.right
    return (m.takeRight n).enter (.takeLeft left n)
  | .takeLeft left right => return (m.takeLeft 1).enter (.settle left right)
  | .settle left right => return m.settle left right

/-- Steps until nothing is left to be compared. Of five steps in a row at least one takes an
item. -/
def run (below : Below ε α) (side : Side) : Nat → Merging α → Except ε (Merging α)
  | 0, m => .ok m
  | fuel + 1, m =>
    if m.isOver side then .ok m
    else
      match m.left, m.right with
      | a :: _, b :: _ =>
        match m.step below side a b with
        | .error e => .error e
        | .ok n => run below side fuel n
      | _, _ => .ok m

/-- The merging of two lists of which the right one's first item comes before the left one's, and
the left one's last item after the right one's. -/
def start (side : Side) (patience : Nat) (left right : List α) : Merging α :=
  match side with
  | .front => takeRight ⟨[], left, right, patience, .single 0 0⟩ 1
  | .back => takeLeft ⟨[], left.reverse, right.reverse, patience, .single 0 0⟩ 1

end Merging

/-- Two sorted lists as one, and how patient the next merging is to be. -/
def merge (below : Below ε α) (patience : Nat) (xs ys : List α) : Except ε (List α × Nat) := do
  match ys.head?, xs.getLast? with
  | some first, some last =>
    let n ← gallop (askAt (below first) xs) xs.length 0
    if xs.length ≤ n then return (xs ++ ys, patience)
    let k ← gallop (askAt (fun y => (below y last).map not) ys) ys.length (ys.length - 1)
    if k = 0 then return (xs ++ ys, patience)
    let left := xs.drop n
    let right := ys.take k
    let side := if left.length ≤ right.length then Side.front else Side.back
    let m ← (Merging.start side patience left right).run below side
      (5 * (left.length + right.length))
    return (xs.take n ++ m.result side ++ ys.drop k, m.patience)
  | _, _ => return (xs ++ ys, patience)

end FlagPoll.Sorting
