/-!
# FlagPoll.Text.Utf8

UTF-8, read strictly: no overlong form, no surrogate, nothing above U+10FFFF.

* `encode` — the octets of a text.
* `decode` — the characters of a row of octets, or the first octets that no character starts with.
-/

namespace FlagPoll.Utf8

def encodeChar (c : Char) : List UInt8 :=
  let n := c.toNat
  if n < 0x80 then [.ofNat n]
  else if n < 0x800 then [.ofNat (0xC0 + n / 64), .ofNat (0x80 + n % 64)]
  else if n < 0x10000 then
    [.ofNat (0xE0 + n / 4096), .ofNat (0x80 + n / 64 % 64), .ofNat (0x80 + n % 64)]
  else
    [.ofNat (0xF0 + n / 262144), .ofNat (0x80 + n / 4096 % 64), .ofNat (0x80 + n / 64 % 64),
      .ofNat (0x80 + n % 64)]

def encode (cs : List Char) : List UInt8 := cs.flatMap encodeChar

inductive Problem where
  | start
  | continuation
  | truncated
  deriving DecidableEq, Repr

/-- The first octets that are the beginning of no character. -/
structure Fault where
  position : Nat
  length : Nat
  first : UInt8
  problem : Problem
  deriving DecidableEq, Repr

def Problem.message : Problem → String
  | .start => "invalid start byte"
  | .continuation => "invalid continuation byte"
  | .truncated => "unexpected end of data"

def hexByte (b : UInt8) : String :=
  String.ofList [Nat.digitChar (b.toNat / 16), Nat.digitChar (b.toNat % 16)]

def Fault.message (f : Fault) : String :=
  let place :=
    if f.length = 1 then s!"byte 0x{hexByte f.first} in position {f.position}"
    else s!"bytes in position {f.position}-{f.position + f.length - 1}"
  "'utf-8' codec can't decode " ++ place ++ ": " ++ f.problem.message

/-- A character whose octets have begun. -/
structure Begun where
  first : UInt8
  taken : Nat
  /-- How many octets are to come after the next one. -/
  more : Nat
  /-- The bounds of the next octet. -/
  low : Nat
  high : Nat
  bits : Nat
  deriving DecidableEq, Repr

inductive Lead where
  | alone (c : Char)
  | begun (b : Begun)
  | refused

/-- What the first octet of a character announces. The bounds of the second octet keep out
overlong forms, surrogates and values above the last character. -/
def lead (b : UInt8) : Lead :=
  let n := b.toNat
  if n < 0x80 then .alone (Char.ofNat n)
  else if n < 0xC2 then .refused
  else if n < 0xE0 then .begun ⟨b, 1, 0, 0x80, 0xBF, n - 0xC0⟩
  else if n < 0xF0 then
    .begun ⟨b, 1, 1, if n = 0xE0 then 0xA0 else 0x80, if n = 0xED then 0x9F else 0xBF, n - 0xE0⟩
  else if n < 0xF5 then
    .begun ⟨b, 1, 2, if n = 0xF0 then 0x90 else 0x80, if n = 0xF4 then 0x8F else 0xBF, n - 0xF0⟩
  else .refused

def Begun.push (g : Begun) (b : UInt8) : Begun :=
  ⟨g.first, g.taken + 1, g.more - 1, 0x80, 0xBF, g.bits * 64 + (b.toNat - 0x80)⟩

def Begun.fault (g : Begun) (position : Nat) (problem : Problem) : Fault :=
  ⟨position - g.taken, g.taken, g.first, problem⟩

/-- Reads on from a position, perhaps inside a character. -/
def decodeFrom (position : Nat) : Option Begun → List UInt8 → Except Fault (List Char)
  | none, [] => .ok []
  | some g, [] => .error (g.fault position .truncated)
  | none, b :: rest =>
    match lead b with
    | .alone c => (decodeFrom (position + 1) none rest).map (c :: ·)
    | .begun g => decodeFrom (position + 1) (some g) rest
    | .refused => .error ⟨position, 1, b, .start⟩
  | some g, b :: rest =>
    if g.low ≤ b.toNat ∧ b.toNat ≤ g.high then
      match g.more with
      | 0 => (decodeFrom (position + 1) none rest).map (Char.ofNat (g.push b).bits :: ·)
      | _ + 1 => decodeFrom (position + 1) (some (g.push b)) rest
    else .error (g.fault position .continuation)

def decode (bytes : List UInt8) : Except Fault (List Char) := decodeFrom 0 none bytes

end FlagPoll.Utf8
