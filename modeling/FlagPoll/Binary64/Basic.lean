import FlagPoll.ExtendedRat

/-!
# FlagPoll.Binary64.Basic

Binary64 numbers, without the machine's own floats: a finite number is a sign, a significand and
an exponent, and every operation is exact arithmetic followed by one rounding.

* `ofRatio`    — the nearest number to a quotient; a tie goes to the even significand.
* `value`      — what a number stands for.
* `add`, `sub` — exact sum or difference, rounded once.
-/

namespace FlagPoll

/-- A binary64 number; a finite one is `± significand · 2 ^ exponent`. -/
inductive Binary64 where
  | finite (negative : Bool) (significand : Nat) (exponent : Int)
  | infinite (negative : Bool)
  | nan
  deriving DecidableEq, Repr, Inhabited

namespace Binary64

def leastExponent : Int := -1074

def greatestExponent : Int := 971

def twoTo (n : Nat) : Nat := Nat.pow 2 n

/-- The least significand of a number that is not subnormal, `2 ^ 52`. -/
def normalBound : Nat := twoTo 52

/-- The number above all significands, `2 ^ 53`. -/
def significandBound : Nat := twoTo 53

theorem twoTo_succ (n : Nat) : twoTo (n + 1) = twoTo n * 2 := rfl

def zero (negative : Bool) : Binary64 := .finite negative 0 leastExponent

/-- The nearest integer to a quotient, a half going to the even neighbour. -/
def roundDiv (num den : Nat) : Nat :=
  let q := num / den
  let r := num % den
  if 2 * r < den ∨ (2 * r = den ∧ q % 2 = 0) then q else q + 1

/-- The greatest `k` with `2 ^ k ≤ num / den`, for a positive quotient. -/
def floorLog2 (num den : Nat) : Int :=
  let k : Int := (num.log2 : Int) - (den.log2 : Int)
  if den * twoTo k.toNat ≤ num * twoTo (-k).toNat then k else k - 1

/-- A significand below `2 ^ 53`; one that rounding has carried up to `2 ^ 53` is halved. -/
def ofSignificand (negative : Bool) (significand : Nat) (exponent : Int) : Binary64 :=
  if significand = 0 then zero negative
  else
    let carried := significand = significandBound
    let e := if carried then exponent + 1 else exponent
    if greatestExponent < e then .infinite negative
    else .finite negative (if carried then normalBound else significand) e

/-- The binary64 number nearest to `± num / den`. -/
def ofRatio (negative : Bool) (num den : Nat) : Binary64 :=
  if num = 0 then zero negative
  else
    let e := max (floorLog2 num den - 52) leastExponent
    ofSignificand negative (roundDiv (num * twoTo (-e).toNat) (den * twoTo e.toNat)) e

def ofRat (q : Rat) : Binary64 := ofRatio (q < 0) q.num.natAbs q.den

def ofInt (n : Int) : Binary64 := ofRatio (n < 0) n.natAbs 1

/-- The rational `± significand · 2 ^ exponent`. -/
def scaled (negative : Bool) (significand : Nat) (exponent : Int) : Rat :=
  let magnitude : Rat := (significand : Rat) * (2 : Rat) ^ exponent
  if negative then -magnitude else magnitude

def value : Binary64 → ExtendedRat
  | .finite negative significand exponent => .finite (scaled negative significand exponent)
  | .infinite negative => .infinite negative
  | .nan => .undefined

def neg : Binary64 → Binary64
  | .finite negative significand exponent => .finite (!negative) significand exponent
  | .infinite negative => .infinite (!negative)
  | .nan => .nan

/-- A sum that is exactly zero is negative only when both terms are. -/
def add : Binary64 → Binary64 → Binary64
  | .nan, _ => .nan
  | _, .nan => .nan
  | .infinite s, .infinite t => if s = t then .infinite s else .nan
  | .infinite s, .finite .. => .infinite s
  | .finite .., .infinite t => .infinite t
  | .finite s m e, .finite t n f =>
    let total := scaled s m e + scaled t n f
    if total = 0 then zero (s && t) else ofRat total

def sub (a b : Binary64) : Binary64 := a.add b.neg

def lt (a b : Binary64) : Bool := a.value.lt b.value

def le (a b : Binary64) : Bool := a.value.le b.value

def toInt? : Binary64 → Option Int
  | .finite negative significand exponent =>
    let q := scaled negative significand exponent
    if q.den = 1 then some q.num else none
  | _ => none

theorem value_nan : value .nan = .undefined := rfl

theorem add_nan (a : Binary64) : a.add .nan = .nan := by cases a <;> rfl

theorem nan_add (a : Binary64) : add .nan a = .nan := by cases a <;> rfl

end Binary64
end FlagPoll
