import FlagPoll.Binary64.Basic
import FlagPoll.Decimal

/-!
# FlagPoll.Binary64.Text

Decimal texts of binary64 numbers.

* `shortest` — the fewest digits that read back as the same number, and of those the nearest.
* `text`     — those digits, laid out as `layout` says.
* `ofText?`  — the number nearest to a decimal text.
-/

namespace FlagPoll
namespace Binary64

/-- A positive decimal `digits · 10 ^ exponent`. -/
structure Shortest where
  digits : Nat
  exponent : Int
  deriving DecidableEq, Repr

/-- The greatest `k` with `10 ^ k ≤ q`, for a positive `q`. -/
def floorLog10 (q : Rat) : Int :=
  if 1 ≤ q then (Decimal.digitCount q.floor.toNat : Int) - 1
  else -(Decimal.digitCount ((q.den + q.num.toNat - 1) / q.num.toNat - 1) : Int)

/-- Whether a rational rounds to `significand · 2 ^ exponent`: it lies no further than half way to
the neighbours, and on the half only for an even significand. Below a power of two the neighbour
is nearer. -/
def reads (significand : Nat) (exponent : Int) (q : Rat) : Bool :=
  let unit : Rat := (2 : Rat) ^ exponent
  let below : Rat := if significand = normalBound ∧ leastExponent < exponent then 1 / 4 else 1 / 2
  let low := ((significand : Rat) - below) * unit
  let high := ((significand : Rat) + 1 / 2) * unit
  if significand % 2 = 0 then low ≤ q && q ≤ high else low < q && q < high

/-- Of the two neighbours of a number on the grid of multiples of `10 ^ scale`, the nearer that
reads back; a tie goes to the even digit. -/
def onGrid? (significand : Nat) (exponent scale : Int) : Option Shortest :=
  let grid : Rat := (10 : Rat) ^ scale
  let exact := scaled false significand exponent / grid
  let low := exact.floor
  let fits (n : Int) : Bool := reads significand exponent ((n : Rat) * grid)
  let rest := exact - low
  let lowFirst : Bool := rest < 1 / 2 || (rest = 1 / 2 && low % 2 = 0)
  let choice (n m : Int) : Option Shortest :=
    if fits n then some ⟨n.toNat, scale⟩ else if fits m then some ⟨m.toNat, scale⟩ else none
  if lowFirst then choice low (low + 1) else choice (low + 1) low

/-- The fewest digits that read back; seventeen always do. -/
def shortest (significand : Nat) (exponent : Int) : Shortest :=
  let top := floorLog10 (scaled false significand exponent)
  ((List.range 17).findSome? fun (k : Nat) => onGrid? significand exponent (top - k)).getD
    ⟨significand, exponent⟩

/-- How a decimal is laid out. -/
structure Layout where
  /-- The least decimal exponent that is written positionally. -/
  positionalFrom : Int
  /-- The least decimal exponent above those that are written positionally. -/
  positionalBelow : Int
  /-- The least number of digits of a written exponent. -/
  exponentDigits : Nat

/-- Positional from `10 ^ -4` to below `10 ^ 16`; written exponents have two digits or more. -/
def layout : Layout := ⟨-4, 16, 2⟩

def zeros (n : Nat) : List Char := List.replicate n '0'

/-- Digits with the point after position `point`, and a zero on either side where none stands. -/
def positional (ds : List Char) (point : Int) : List Char :=
  if point ≤ 0 then '0' :: '.' :: (zeros (-point).toNat ++ ds)
  else
    let n := point.toNat
    if ds.length ≤ n then ds ++ zeros (n - ds.length) ++ ['.', '0']
    else ds.take n ++ '.' :: ds.drop n

/-- One digit before the point, the rest behind it, then the exponent with its sign. -/
def scientific (least : Nat) (ds : List Char) (exponent : Int) : List Char :=
  let mantissa := match ds with
    | [] => []
    | [d] => [d]
    | d :: rest => d :: '.' :: rest
  let power := Nat.toDigits 10 exponent.natAbs
  mantissa ++ 'e' :: (if exponent < 0 then '-' else '+') :: (zeros (least - power.length) ++ power)

/-- A row of digits without the zeros at its end. -/
def dropTrailingZeros (ds : List Char) : List Char := (ds.reverse.dropWhile (· = '0')).reverse

def Shortest.text (l : Layout) (s : Shortest) : List Char :=
  let all := Nat.toDigits 10 s.digits
  let exponent := s.exponent + all.length - 1
  let ds := dropTrailingZeros all
  if l.positionalFrom ≤ exponent ∧ exponent < l.positionalBelow then positional ds (exponent + 1)
  else scientific l.exponentDigits ds exponent

def magnitudeText (significand : Nat) (exponent : Int) : List Char :=
  if significand = 0 then ['0', '.', '0'] else (shortest significand exponent).text layout

def text : Binary64 → String
  | .finite negative significand exponent =>
    String.ofList (if negative then '-' :: magnitudeText significand exponent
      else magnitudeText significand exponent)
  | .infinite negative => if negative then "-inf" else "inf"
  | .nan => "nan"

def tenTo (n : Nat) : Nat := Nat.pow 10 n

theorem tenTo_succ (n : Nat) : tenTo (n + 1) = tenTo n * 10 := rfl

/-- The number nearest to `± digits · 10 ^ scale`. A scale far outside the range is settled by
the count of the digits. -/
def ofScaled (negative : Bool) (digits : Nat) (scale : Int) : Binary64 :=
  let top : Int := Decimal.digitCount digits + scale
  if digits = 0 ∨ top < -330 then zero negative
  else if 330 < top then .infinite negative
  else ofRatio negative (digits * tenTo scale.toNat) (tenTo (-scale).toNat)

def ofNumeral (n : Decimal.Numeral) : Binary64 := ofScaled n.negative n.significand n.scale

def ofText? (s : String) : Option Binary64 :=
  match s.toList with
  | ['i', 'n', 'f'] => some (.infinite false)
  | ['-', 'i', 'n', 'f'] => some (.infinite true)
  | ['n', 'a', 'n'] => some .nan
  | cs => match Decimal.Numeral.read cs with
    | some (n, []) => some (ofNumeral n)
    | _ => none

end Binary64
end FlagPoll
