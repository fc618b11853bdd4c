import FlagPoll.Binary64.Text
import FlagPoll.Time

/-!
# FlagPoll.Number

Numbers of a configuration or a clock: unbounded integers and binary64 numbers side by side.

* `value`        — the exact value; comparisons are comparisons of values.
* `add`, `sub`   — exact between integers, rounded once if a binary64 number takes part.
* `plain`        — the integer that a binary64 number equals, where a clock keeps it.
* `text`         — an integer's digits, or the shortest text of the binary64 number.
-/

namespace FlagPoll

inductive Number where
  | int (n : Int)
  | float (x : Binary64)
  deriving DecidableEq, Repr, Inhabited

namespace Number

def value : Number → ExtendedRat
  | .int n => .finite n
  | .float x => x.value

def toBinary64 : Number → Binary64
  | .int n => .ofInt n
  | .float x => x

/-- Whether a number is an integer above all binary64 numbers, or below them. -/
def isTooLarge : Number → Bool
  | .int n => Binary64.ofInt n = .infinite (n < 0)
  | .float _ => false

def add : Number → Number → Number
  | .int a, .int b => .int (a + b)
  | a, b => .float (a.toBinary64.add b.toBinary64)

def sub : Number → Number → Number
  | .int a, .int b => .int (a - b)
  | a, b => .float (a.toBinary64.sub b.toBinary64)

def text : Number → String
  | .int n => toString n
  | .float x => x.text

def toInt? : Number → Option Int
  | .int n => some n
  | .float x => x.toInt?

/-- A number as an integer if it equals one. -/
def plain (x : Number) : Number :=
  match x.toInt? with
  | some n => .int n
  | none => x

instance instZero : Zero Number := ⟨.int 0⟩
instance instAdd : Add Number := ⟨add⟩
instance instSub : Sub Number := ⟨sub⟩
instance instLT : LT Number := ⟨fun a b => a.value.lt b.value = true⟩
instance instLE : LE Number := ⟨fun a b => a.value.le b.value = true⟩
instance instOfNat (n : Nat) : OfNat Number n := ⟨.int n⟩

instance instTime : Time Number where
  decideLt a b := inferInstanceAs (Decidable (a.value.lt b.value = true))
  decideLe a b := inferInstanceAs (Decidable (a.value.le b.value = true))
  text := text
  kept := plain

theorem lt_iff (a b : Number) : a < b ↔ a.value.lt b.value = true := Iff.rfl

theorem le_iff (a b : Number) : a ≤ b ↔ a.value.le b.value = true := Iff.rfl

end Number
end FlagPoll
