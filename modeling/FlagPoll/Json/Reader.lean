import FlagPoll.Json.Basic

/-!
# FlagPoll.Json.Reader

Reading JSON text. A reader takes what it needs from the front of the text and returns the rest;
a fault carries the rest of the text from the place it is about.

* `string` — a string after its opening quote; the escapes of a pair of surrogates are joined to
  one code point.
* `value`  — one value; `NaN`, `Infinity` and `-Infinity` are numbers, an integer may not have more
  than 4300 digits, and arrays and objects may not be nested too deeply.
* `readWithin`, `read` — a whole text: one value between blanks.
-/

namespace FlagPoll.Json

namespace Reader

inductive Container where
  | array
  | object
  deriving DecidableEq, Repr

def Container.name : Container → String
  | .array => "array"
  | .object => "object"

inductive Cause where
  | value
  | name
  | colon
  | comma
  | unterminated
  | control
  | escape
  | unicodeEscape
  | extra
  | byteOrderMark
  | digitLimit (digits : Nat)
  | tooDeep (container : Container)
  deriving DecidableEq, Repr

structure Fault where
  cause : Cause
  rest : List Char
  deriving DecidableEq, Repr

abbrev Result (α : Type) := Except Fault (α × List Char)

def isSpace (c : Char) : Bool := c = ' ' || c = '\t' || c = '\n' || c = '\r'

def skip (cs : List Char) : List Char := cs.dropWhile isSpace

def hexValue? (c : Char) : Option Nat :=
  if '0' ≤ c ∧ c ≤ '9' then some (c.toNat - 48)
  else if 'a' ≤ c ∧ c ≤ 'f' then some (c.toNat - 87)
  else if 'A' ≤ c ∧ c ≤ 'F' then some (c.toNat - 55)
  else none

def hex4? (a b c d : Char) : Option Nat := do
  return 4096 * (← hexValue? a) + 256 * (← hexValue? b) + 16 * (← hexValue? c) + (← hexValue? d)

def escaped? : Char → Option Char
  | '"' => some '"'
  | '\\' => some '\\'
  | '/' => some '/'
  | 'b' => some '\x08'
  | 'f' => some '\x0c'
  | 'n' => some '\n'
  | 'r' => some '\r'
  | 't' => some '\t'
  | _ => none

/-- The code units of a string up to its closing quote; `quote` is the text from the opening one.
A numeric escape has to be followed by at least one more character. -/
def units (quote : List Char) : List Char → Result (List Nat)
  | [] => .error ⟨.unterminated, quote⟩
  | c :: rest =>
    if c = '"' then .ok ([], rest)
    else if c = '\\' then
      match rest with
      | [] => .error ⟨.unterminated, quote⟩
      | 'u' :: digits =>
        match digits with
        | a :: b :: d :: e :: more =>
          match hex4? a b d e, more with
          | some n, _ :: _ => (units quote more).map fun (us, r) => (n :: us, r)
          | _, _ => .error ⟨.unicodeEscape, 'u' :: digits⟩
        | _ => .error ⟨.unicodeEscape, 'u' :: digits⟩
      | x :: more =>
        match escaped? x with
        | some y => (units quote more).map fun (us, r) => (y.toNat :: us, r)
        | none => .error ⟨.escape, c :: x :: more⟩
    else if c.toNat < 0x20 then .error ⟨.control, c :: rest⟩
    else (units quote rest).map fun (us, r) => (c.toNat :: us, r)

/-- Code units as code points, each high surrogate joined with a low one behind it. -/
def join : List Nat → List Nat
  | [] => []
  | [n] => [n]
  | n :: m :: rest =>
    if CodePoints.isHighSurrogate n && CodePoints.isLowSurrogate m then
      (0x10000 + (n - 0xD800) * 0x400 + (m - 0xDC00)) :: join rest
    else n :: join (m :: rest)

/-- A string; the text starts after its opening quote. -/
def string (cs : List Char) : Result CodePoints :=
  (units ('"' :: cs) cs).map fun (us, rest) => (⟨join us⟩, rest)

/-- A number, or the fault that no value stands here. -/
def number (cs : List Char) : Result Value :=
  match Decimal.Numeral.read cs with
  | none => .error ⟨.value, cs⟩
  | some (n, rest) =>
    if !n.isInteger then .ok (.float (.ofNumeral n), rest)
    else if Decimal.mostDigits < n.whole.length then .error ⟨.digitLimit n.whole.length, cs⟩
    else .ok (.int n.toInt, rest)

mutual

/-- One value at the front of a text, with so many values around it that may still be nested. No
character takes more than two nested calls, so that a fuel above twice the length of the text is
never used up. -/
def value : Nat → Nat → List Char → Result Value
  | 0, _, cs => .error ⟨.value, cs⟩
  | fuel + 1, room, cs =>
    match cs with
    | '"' :: rest => (string rest).map fun (s, r) => (.string s, r)
    | '\x7b' :: rest =>
      match room, skip rest with
      | 0, _ => .error ⟨.tooDeep .object, cs⟩
      | _ + 1, '\x7d' :: r => .ok (.object [], r)
      | room + 1, r => (members fuel room r).map fun (ms, r) => (.object (Members.ofList ms), r)
    | '[' :: rest =>
      match room, skip rest with
      | 0, _ => .error ⟨.tooDeep .array, cs⟩
      | _ + 1, ']' :: r => .ok (.array [], r)
      | room + 1, r => (items fuel room r).map fun (vs, r) => (.array vs, r)
    | 'n' :: 'u' :: 'l' :: 'l' :: rest => .ok (.null, rest)
    | 't' :: 'r' :: 'u' :: 'e' :: rest => .ok (.bool true, rest)
    | 'f' :: 'a' :: 'l' :: 's' :: 'e' :: rest => .ok (.bool false, rest)
    | 'N' :: 'a' :: 'N' :: rest => .ok (.float .nan, rest)
    | 'I' :: 'n' :: 'f' :: 'i' :: 'n' :: 'i' :: 't' :: 'y' :: rest =>
      .ok (.float (.infinite false), rest)
    | '-' :: 'I' :: 'n' :: 'f' :: 'i' :: 'n' :: 'i' :: 't' :: 'y' :: rest =>
      .ok (.float (.infinite true), rest)
    | _ => number cs

def items : Nat → Nat → List Char → Result (List Value)
  | 0, _, cs => .error ⟨.value, cs⟩
  | fuel + 1, room, cs =>
    match value fuel room cs with
    | .error f => .error f
    | .ok (v, rest) =>
      match skip rest with
      | ']' :: r => .ok ([v], r)
      | ',' :: r => (items fuel room (skip r)).map fun (vs, r) => (v :: vs, r)
      | r => .error ⟨.comma, r⟩

def members : Nat → Nat → List Char → Result Members
  | 0, _, cs => .error ⟨.name, cs⟩
  | fuel + 1, room, cs =>
    match cs with
    | '"' :: rest =>
      match string rest with
      | .error f => .error f
      | .ok (name, rest) =>
        match skip rest with
        | ':' :: r =>
          match value fuel room (skip r) with
          | .error f => .error f
          | .ok (v, rest) =>
            match skip rest with
            | '\x7d' :: r => .ok ([(name, v)], r)
            | ',' :: r => (members fuel room (skip r)).map fun (ms, r) => ((name, v) :: ms, r)
            | r => .error ⟨.comma, r⟩
        | r => .error ⟨.colon, r⟩
    | _ => .error ⟨.name, cs⟩

end

def mostNested : Nat := 990

/-- A text that is one value between blanks, with so many values nested in each other at most. A
byte order mark is refused first. -/
def document (room : Nat) (text : List Char) : Except Fault Value :=
  match text with
  | '\ufeff' :: _ => .error ⟨.byteOrderMark, text⟩
  | _ =>
    match value (2 * text.length + 1) room (skip text) with
    | .error f => .error f
    | .ok (v, rest) =>
      match skip rest with
      | [] => .ok v
      | r => .error ⟨.extra, r⟩

def Cause.message : Cause → String
  | .value => "Expecting value"
  | .name => "Expecting property name enclosed in double quotes"
  | .colon => "Expecting ':' delimiter"
  | .comma => "Expecting ',' delimiter"
  | .unterminated => "Unterminated string starting at"
  | .control => "Invalid control character at"
  | .escape => "Invalid \\escape"
  | .unicodeEscape => "Invalid \\uXXXX escape"
  | .extra => "Extra data"
  | .byteOrderMark => "Unexpected UTF-8 BOM (decode using utf-8-sig)"
  | .digitLimit digits => Decimal.tooManyDigits digits
  | .tooDeep container =>
    "maximum recursion depth exceeded while decoding a JSON " ++ container.name
      ++ " from a unicode string"

/-- Lines and columns count from one. -/
structure Position where
  line : Nat
  column : Nat
  offset : Nat
  deriving DecidableEq, Repr

def Position.after (cs : List Char) : Position where
  line := cs.count '\n' + 1
  column := (cs.reverse.takeWhile (· ≠ '\n')).length + 1
  offset := cs.length

def Fault.position (text : List Char) (f : Fault) : Position :=
  .after (text.take (text.length - f.rest.length))

def Fault.message (text : List Char) (f : Fault) : String :=
  match f.cause with
  | .digitLimit _ | .tooDeep _ => f.cause.message
  | _ =>
    let p := f.position text
    s!"{f.cause.message}: line {p.line} column {p.column} (char {p.offset})"

end Reader

def readWithin (room : Nat) (text : List Char) : Except Reader.Fault Value :=
  Reader.document room text

def read (text : List Char) : Except Reader.Fault Value := readWithin Reader.mostNested text

end FlagPoll.Json
