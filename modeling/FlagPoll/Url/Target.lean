import FlagPoll.Text.Blank
import FlagPoll.Text.Lowercase
import FlagPoll.Text.Quoted
import FlagPoll.Url.Address

/-!
# FlagPoll.Url.Target

Where requests go: scheme, host and port of a target address.

* `Target.ofText` — reads an address; one without `//` is taken to be plain http.
-/

namespace FlagPoll.Url

open Text (before after? beforeLast? afterLast)
open Decimal (isDigit natOfDigits)

structure Target where
  secure : Bool
  host : List Char
  port : Nat
  deriving DecidableEq, Repr

namespace Target

inductive Fault where
  | brackets
  | address (text : List Char)
  | quadInBrackets
  | futureAddress
  | compatibility (authority : List Char)
  | portText (text : List Char)
  | portDigits (count : Nat)
  | portRange
  deriving DecidableEq, Repr

def Fault.message : Fault → String
  | .brackets => "Invalid IPv6 URL"
  | .address text =>
    String.ofList (Quoted.encode text) ++ " does not appear to be an IPv4 or IPv6 address"
  | .quadInBrackets => "An IPv4 address cannot be in brackets"
  | .futureAddress => "IPvFuture address is invalid"
  | .compatibility authority =>
    "netloc '" ++ String.ofList authority
      ++ "' contains invalid characters under NFKC normalization"
  | .portText text =>
    "Port could not be cast to integer value as " ++ String.ofList (Quoted.encode text)
  | .portDigits count => Decimal.tooManyDigits count
  | .portRange => "Port out of range 0-65535"

def hasSlashes : List Char → Bool
  | '/' :: '/' :: _ => true
  | _ :: rest => hasSlashes rest
  | [] => false

/-- An address with a scheme in front if it has no `//`. -/
def withScheme (cs : List Char) : List Char :=
  if hasSlashes cs then cs else "http://".toList ++ cs

/-- Control characters and blanks at the front, and tabs and line ends anywhere, do not count. -/
def clean (cs : List Char) : List Char :=
  (Text.dropFront (fun c => c.toNat ≤ 0x20) cs).filter fun c => c ≠ '\t' && c ≠ '\r' && c ≠ '\n'

def isSchemeChar (c : Char) : Bool := c.isAlphanum || c = '+' || c = '-' || c = '.'

/-- The scheme, in small letters, and what follows its colon; none if the text before the first
colon is no scheme. -/
def splitScheme (cs : List Char) : List Char × List Char :=
  match cs.head?, after? ':' cs with
  | some c, some rest =>
    let scheme := before ':' cs
    if c.isAlpha && scheme.all isSchemeChar then (Text.lowerAscii scheme, rest) else ([], cs)
  | _, _ => ([], cs)

def isAuthorityEnd (c : Char) : Bool := c = '/' || c = '?' || c = '#'

/-- What stands between `//` and the path, nothing without `//`. -/
def authority : List Char → List Char
  | '/' :: '/' :: rest => rest.takeWhile fun c => !isAuthorityEnd c
  | _ => []

def bracketedFault? (host : List Char) : Option Fault :=
  if host.head? = some 'v' then if isFuture host then none else some .futureAddress
  else if isQuad host then some .quadInBrackets
  else if isScopedHextets host then none
  else some (.address host)

/-- Brackets come in pairs and hold an address; nothing stands before them and only a port after
them. Where they stand in the user information alone, the host has to be an address all the same. -/
def bracketFault? (authority : List Char) : Option Fault :=
  if '[' ∉ authority ∧ ']' ∉ authority then none
  else if '[' ∉ authority ∨ ']' ∉ authority then some .brackets
  else
    let place := afterLast '@' authority
    match after? '[' place with
    | none => bracketedFault? (before ':' place)
    | some rest =>
      let more := (after? ']' rest).getD []
      if before '[' place ≠ [] ∨ more ≠ [] ∧ more.head? ≠ some ':' then some .brackets
      else bracketedFault? (before ']' rest)

/-- Characters whose compatibility form contains a delimiter of addresses. -/
def delimiterForms : List Nat :=
  [0x2047, 0x2048, 0x2049, 0x2100, 0x2101, 0x2105, 0x2106, 0x2A74, 0xFE13, 0xFE16, 0xFE55, 0xFE56,
    0xFE5F, 0xFE6B, 0xFF03, 0xFF0F, 0xFF1A, 0xFF1F, 0xFF20]

def compatibilityFault? (authority : List Char) : Option Fault :=
  if authority.any fun c => delimiterForms.contains c.toNat then some (.compatibility authority)
  else none

/-- The host and the text of the port; user information before the last `@` is dropped. -/
def hostAndPort (authority : List Char) : List Char × List Char :=
  let place := afterLast '@' authority
  match after? '[' place with
  | some rest => (before ']' rest, (after? ':' ((after? ']' rest).getD [])).getD [])
  | none => (before ':' place, (after? ':' place).getD [])

/-- The host in small letters, apart from the zone of an address. -/
def lowerHost (host : List Char) : List Char :=
  Text.lowercase (before '%' host) ++
    match after? '%' host with
    | none => []
    | some zone => '%' :: zone

/-- The port a text stands for, none for no text. -/
def portOf (cs : List Char) : Except Fault (Option Nat) :=
  if cs = [] then .ok none
  else if !cs.all isDigit then .error (.portText cs)
  else if Decimal.mostDigits < cs.length then .error (.portDigits cs.length)
  else if 65535 < natOfDigits cs then .error .portRange
  else .ok (some (natOfDigits cs))

def defaultPort (secure : Bool) : Nat := if secure then 443 else 80

/-- A port of zero counts as none. -/
def ofAuthority (secure : Bool) (authority : List Char) : Except Fault Target :=
  match bracketFault? authority <|> compatibilityFault? authority with
  | some f => .error f
  | none =>
    let (host, port) := hostAndPort authority
    match portOf port with
    | .error f => .error f
    | .ok none | .ok (some 0) => .ok ⟨secure, lowerHost host, defaultPort secure⟩
    | .ok (some p) => .ok ⟨secure, lowerHost host, p⟩

def ofText (cs : List Char) : Except Fault Target :=
  let (scheme, rest) := splitScheme (clean (withScheme cs))
  ofAuthority (scheme = "https".toList) (authority rest)

end Target
end FlagPoll.Url
