import FlagPoll.Decimal
import FlagPoll.Text.Split

/-!
# FlagPoll.Url.Address

Texts of network addresses.

* `isQuad`      — four decimal octets.
* `isLooseQuad` — four groups of one to three digits, whatever their value.
* `isNumeric`   — up to four numbers, decimal or hexadecimal.
* `isHextets`   — eight groups of hexadecimal digits; one run of zero groups may be left out, and
  the last two groups may be written as four octets.
-/

namespace FlagPoll.Url

open Text (fields)
open Decimal (isDigit natOfDigits)

def isHexDigit (c : Char) : Bool :=
  isDigit c || ('a' ≤ c && c ≤ 'f') || ('A' ≤ c && c ≤ 'F')

def hexDigitValue (c : Char) : Nat :=
  if isDigit c then c.toNat - 48 else if 'a' ≤ c then c.toNat - 87 else c.toNat - 55

def isLooseOctet (cs : List Char) : Bool := cs ≠ [] && cs.length ≤ 3 && cs.all isDigit

/-- A number up to 255 without a needless zero in front. -/
def isOctet (cs : List Char) : Bool :=
  isLooseOctet cs && (cs = ['0'] || cs.head? ≠ some '0') && natOfDigits cs ≤ 255

def isQuad (cs : List Char) : Bool :=
  let parts := fields '.' cs
  parts.length = 4 && parts.all isOctet

def isLooseQuad (cs : List Char) : Bool :=
  let parts := fields '.' cs
  parts.length = 4 && parts.all isLooseOctet

/-- Decimal digits, or hexadecimal ones after `0x`. -/
def isNumericPart (cs : List Char) : Bool :=
  match cs with
  | '0' :: x :: rest =>
    if x = 'x' || x = 'X' then rest ≠ [] && rest.all isHexDigit else cs.all isDigit
  | cs => cs ≠ [] && cs.all isDigit

/-- Up to four numbers: an address in one of its older spellings. -/
def isNumeric (cs : List Char) : Bool :=
  let parts := fields '.' cs
  parts.length ≤ 4 && parts.all isNumericPart

def isHextet (cs : List Char) : Bool := cs ≠ [] && cs.length ≤ 4 && cs.all isHexDigit

/-- Groups with a last one of four octets replaced by two. -/
def expandQuad (quad : List Char → Bool) (parts : List (List Char)) : Option (List (List Char)) :=
  match parts.getLast? with
  | none => none
  | some last =>
    if '.' ∈ last then
      if quad last then some (parts.dropLast ++ [['0'], ['0']]) else none
    else some parts

/-- The groups on one side of the gap; there are none if the text begins or ends with it. -/
def beside (parts : List (List Char)) : List (List Char) := if parts = [[]] then [] else parts

/-- Where the gap is: the first empty group that is neither the first nor the last one. -/
def gap? (parts : List (List Char)) : Option Nat :=
  (parts.tail.dropLast.findIdx? (· = [])).map (· + 1)

def isHextetList (parts : List (List Char)) : Bool :=
  3 ≤ parts.length && parts.length ≤ 9 &&
    match gap? parts with
    | none => parts.length = 8 && parts.all isHextet
    | some i =>
      let groups := beside (parts.take i) ++ beside (parts.drop (i + 1))
      groups.length ≤ 7 && groups.all isHextet

/-- Eight groups, the last two perhaps as four octets of the given form. -/
def isHextets (quad : List Char → Bool) (cs : List Char) : Bool :=
  let parts := fields ':' cs
  3 ≤ parts.length &&
    match expandQuad quad parts with
    | none => false
    | some parts => isHextetList parts

/-- An address in brackets, with a zone if there is a percent sign. -/
def isScopedHextets (cs : List Char) : Bool :=
  match Text.after? '%' cs with
  | none => isHextets isQuad cs
  | some zone => zone ≠ [] && '%' ∉ zone && isHextets isQuad (Text.before '%' cs)

/-- An address of a later kind: `v`, hexadecimal digits, a point, and something more. -/
def isFuture (cs : List Char) : Bool :=
  match cs with
  | 'v' :: rest =>
    match Text.after? '.' rest with
    | none => false
    | some more =>
      let version := Text.before '.' rest
      version ≠ [] && version.all isHexDigit && more ≠ [] && '\n' ∉ more
  | _ => false

end FlagPoll.Url
