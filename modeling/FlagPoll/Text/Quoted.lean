import FlagPoll.Text.Hidden

/-!
# FlagPoll.Text.Quoted

A text in quotes, for messages: single quotes unless the text has single and no double ones;
the quote, the backslash and characters that are not shown as they are are escaped.
-/

namespace FlagPoll.Quoted

def hexDigits (width n : Nat) : List Char :=
  let ds := Nat.toDigits 16 n
  List.replicate (width - ds.length) '0' ++ ds

/-- A character by its code point, in the shortest of three forms. -/
def codePoint (n : Nat) : List Char :=
  if n < 0x100 then '\\' :: 'x' :: hexDigits 2 n
  else if n < 0x10000 then '\\' :: 'u' :: hexDigits 4 n
  else '\\' :: 'U' :: hexDigits 8 n

def escapeChar (quote c : Char) : List Char :=
  if c = quote ∨ c = '\\' then ['\\', c]
  else if c = '\n' then ['\\', 'n']
  else if c = '\r' then ['\\', 'r']
  else if c = '\t' then ['\\', 't']
  else if Text.isHidden c then codePoint c.toNat
  else [c]

def encode (cs : List Char) : List Char :=
  let quote := if '\x27' ∈ cs ∧ '"' ∉ cs then '"' else '\x27'
  quote :: (cs.flatMap (escapeChar quote) ++ [quote])

end FlagPoll.Quoted
