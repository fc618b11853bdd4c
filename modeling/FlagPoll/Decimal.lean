/-!
# FlagPoll.Decimal

Decimal numerals as they stand in a text: an optional minus, digits without a needless leading
zero, an optional fraction, an optional exponent.

* `Numeral.read` — takes the longest numeral from the front of a text.
* `natOfDigits`  — the number a row of digits stands for.
-/

namespace FlagPoll

namespace Decimal

def isDigit (c : Char) : Bool := '0' ≤ c && c ≤ '9'

def digitValue (c : Char) : Nat := c.toNat - '0'.toNat

def natOfDigits (ds : List Char) : Nat := ds.foldl (fun n c => 10 * n + digitValue c) 0

theorem isDigit_of_mem_toDigits {n : Nat} {c : Char} (h : c ∈ Nat.toDigits 10 n) :
    isDigit c = true := by
  have := Nat.isDigit_of_mem_toDigits (by decide) (by decide) h
  simpa [Char.isDigit, isDigit, Char.le_def] using this

theorem natOfDigits_toDigits (n : Nat) : natOfDigits (Nat.toDigits 10 n) = n := by
  have h := @Nat.ofDigitChars_ten_toDigits n
  rwa [Nat.ofDigitChars_eq_foldl] at h

def mostDigits : Nat := 4300

def tooManyDigits (count : Nat) : String :=
  s!"Exceeds the limit ({mostDigits} digits) for integer string conversion: "
    ++ s!"value has {count} digits; use sys.set_int_max_str_digits() to increase the limit"

/-- How many decimal digits a number has; zero has one. -/
def digitCount (n : Nat) : Nat := (Nat.toDigits 10 n).length

def digits (cs : List Char) : List Char := cs.takeWhile isDigit

def afterDigits (cs : List Char) : List Char := cs.dropWhile isDigit

theorem digits_append_afterDigits (cs : List Char) : digits cs ++ afterDigits cs = cs :=
  List.takeWhile_append_dropWhile

/-- A decimal numeral, piece by piece. -/
structure Numeral where
  negative : Bool
  whole : List Char
  fraction : Option (List Char)
  /-- Whether the exponent is negative, and its digits. -/
  exponent : Option (Bool × List Char)
  deriving DecidableEq, Repr

namespace Numeral

/-- A fraction is a point and at least one digit; otherwise the numeral ends before the point. -/
def readFraction : List Char → Option (List Char) × List Char
  | '.' :: cs =>
    if (digits cs).isEmpty then (none, '.' :: cs) else (some (digits cs), afterDigits cs)
  | cs => (none, cs)

def readSign : List Char → Bool × List Char
  | '-' :: cs => (true, cs)
  | '+' :: cs => (false, cs)
  | cs => (false, cs)

/-- An exponent is an `e`, a sign if there is one, and at least one digit. -/
def readExponent : List Char → Option (Bool × List Char) × List Char
  | [] => (none, [])
  | c :: cs =>
    let (negative, rest) := readSign cs
    if (c = 'e' || c = 'E') && !(digits rest).isEmpty then
      (some (negative, digits rest), afterDigits rest)
    else (none, c :: cs)

/-- The whole part is a lone zero, or digits that do not start with one. -/
def readWhole : List Char → Option (List Char × List Char)
  | [] => none
  | '0' :: cs => some (['0'], cs)
  | c :: cs => if isDigit c then some (digits (c :: cs), afterDigits (c :: cs)) else none

def readUnsigned (negative : Bool) (cs : List Char) : Option (Numeral × List Char) :=
  (readWhole cs).map fun (whole, rest) =>
    let (fraction, rest) := readFraction rest
    let (exponent, rest) := readExponent rest
    (⟨negative, whole, fraction, exponent⟩, rest)

/-- The longest numeral at the front of a text, with what follows it. -/
def read : List Char → Option (Numeral × List Char)
  | '-' :: cs => readUnsigned true cs
  | cs => readUnsigned false cs

/-- Without fraction and exponent, a numeral stands for an integer. -/
def isInteger (n : Numeral) : Bool := n.fraction.isNone && n.exponent.isNone

def toInt (n : Numeral) : Int :=
  if n.negative then -(natOfDigits n.whole : Int) else natOfDigits n.whole

/-- All digits, the point left out. -/
def significand (n : Numeral) : Nat := natOfDigits (n.whole ++ n.fraction.getD [])

/-- The power of ten by which the significand is scaled. -/
def scale (n : Numeral) : Int :=
  let shift : Int := ((n.fraction.getD []).length : Int)
  match n.exponent with
  | none => -shift
  | some (true, ds) => -(natOfDigits ds : Int) - shift
  | some (false, ds) => (natOfDigits ds : Int) - shift

end Numeral
end Decimal
end FlagPoll
