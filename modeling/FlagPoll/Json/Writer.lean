import FlagPoll.Json.Basic

/-!
# FlagPoll.Json.Writer

Writing JSON text without blanks. Characters outside ASCII are written as they are.
-/

namespace FlagPoll.Json

namespace Writer

def hex4 (n : Nat) : List Char :=
  [Nat.digitChar (n / 4096 % 16), Nat.digitChar (n / 256 % 16), Nat.digitChar (n / 16 % 16),
    Nat.digitChar (n % 16)]

def encodeChar (c : Char) : List Char :=
  if c = '"' then ['\\', '"']
  else if c = '\\' then ['\\', '\\']
  else if c.toNat < 0x20 then '\\' :: 'u' :: hex4 c.toNat
  else [c]

def string (s : CodePoints) : List Char :=
  '"' :: (s.toString.toList.flatMap encodeChar ++ ['"'])

def separated : List (List Char) → List Char
  | [] => []
  | [t] => t
  | t :: rest => t ++ ',' :: separated rest

def floatText : Binary64 → String
  | .finite s m e => (Binary64.finite s m e).text
  | .infinite negative => if negative then "-Infinity" else "Infinity"
  | .nan => "NaN"

mutual

def value : Value → List Char
  | .null => "null".toList
  | .bool b => (if b then "true" else "false").toList
  | .int n => (toString n).toList
  | .float x => (floatText x).toList
  | .string s => string s
  | .array vs => '[' :: (separated (items vs) ++ [']'])
  | .object ms => '\x7b' :: (separated (members ms) ++ ['\x7d'])

def items : List Value → List (List Char)
  | [] => []
  | v :: rest => value v :: items rest

def members : List (CodePoints × Value) → List (List Char)
  | [] => []
  | (name, v) :: rest => (string name ++ ':' :: value v) :: members rest

end

end Writer

def Value.render (v : Value) : String := String.ofList (Writer.value v)

end FlagPoll.Json
