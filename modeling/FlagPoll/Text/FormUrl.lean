import FlagPoll.Text.Utf8

/-!
# FlagPoll.Text.FormUrl

Form encoding of a text, as it stands in the query of a URL.

* `encode` — letters, digits and `_ . - ~` stand for themselves, a blank becomes `+`, and every
  other octet of the UTF-8 form becomes `%` and two hexadecimal digits.
* `octets` — the way back, octet by octet.
-/

namespace FlagPoll.FormUrl

def isPlain (c : Char) : Bool :=
  c.isAlphanum || c = '_' || c = '.' || c = '-' || c = '~'

def upperHex (n : Nat) : Char := (Nat.digitChar n).toUpper

/-- An octet as `%` and two hexadecimal digits. -/
def percent (b : UInt8) : List Char := ['%', upperHex (b.toNat / 16), upperHex (b.toNat % 16)]

def encodeChar (c : Char) : List Char :=
  if isPlain c then [c]
  else if c = ' ' then ['+']
  else (Utf8.encodeChar c).flatMap percent

def encode (cs : List Char) : List Char := cs.flatMap encodeChar

def hexValue? (c : Char) : Option Nat :=
  if '0' ≤ c ∧ c ≤ '9' then some (c.toNat - 48)
  else if 'A' ≤ c ∧ c ≤ 'F' then some (c.toNat - 55)
  else if 'a' ≤ c ∧ c ≤ 'f' then some (c.toNat - 87)
  else none

/-- The octets that a form-encoded text stands for; none if a `%` lacks its two digits. -/
def octets : List Char → Option (List UInt8)
  | [] => some []
  | '%' :: a :: b :: rest =>
    match hexValue? a, hexValue? b with
    | some x, some y => (octets rest).map (UInt8.ofNat (16 * x + y) :: ·)
    | _, _ => none
  | c :: rest =>
    if c = '%' then none
    else (octets rest).map (Utf8.encodeChar (if c = '+' then ' ' else c) ++ ·)

def decode? (cs : List Char) : Option (List Char) :=
  match octets cs with
  | none => none
  | some bytes => (Utf8.decode bytes).toOption

end FlagPoll.FormUrl
