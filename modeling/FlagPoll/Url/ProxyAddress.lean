import FlagPoll.Text.FormUrl
import FlagPoll.Url.Target

/-!
# FlagPoll.Url.ProxyAddress

Addresses of proxies.

* `ProxyAddress.ofText` — scheme, user information, host and port of a proxy; only `http` and
  `https` proxies are known.
-/

namespace FlagPoll.Url

open Text (before after? beforeLast? afterLast)
open Decimal (isDigit natOfDigits)

structure ProxyAddress where
  scheme : List Char
  auth : Option (List Char)
  host : Option (List Char)
  port : Nat
  deriving DecidableEq, Repr

namespace ProxyAddress

inductive Fault where
  | noScheme
  | unknownScheme (scheme : List Char)
  | hostOrPort (text : List Char)
  | hostCharacter (host : List Char) (c : Char)
  | hostControl (host triple : List Char)
  | portRange (address : List Char)
  | internationalHost
  /-- Characters of the user information, from a place on, that have no octet of their own. -/
  | wideAuth (place : Nat) (run : List Char)
  deriving DecidableEq, Repr

def wideMessage (place : Nat) (run : List Char) : String :=
  "'latin-1' codec can't encode " ++
    (match run with
      | [c] => s!"character '{String.ofList (Quoted.codePoint c.toNat)}' in position {place}"
      | _ => s!"characters in position {place}-{place + run.length - 1}")
    ++ ": ordinal not in range(256)"

def unreadable (text : List Char) : String := "Failed to parse: " ++ String.ofList text

def Fault.message : Fault → String
  | .noScheme => "Proxy URL had no scheme, should start with http:// or https://"
  | .unknownScheme s =>
    "Proxy URL had unsupported scheme " ++ String.ofList s ++ ", should use http:// or https://"
  | .hostOrPort text => unreadable (Quoted.encode text) ++ " is not a valid host or port"
  | .hostCharacter host c =>
    unreadable ("Host ".toList ++ Quoted.encode host) ++ " contains invalid character "
      ++ String.ofList (Quoted.encode [c])
  | .hostControl host triple =>
    unreadable ("Host ".toList ++ Quoted.encode host)
      ++ " contains invalid percent-encoded control character "
      ++ String.ofList (Quoted.encode triple)
  | .portRange address => unreadable address
  | .internationalHost => unreadable "Unable to parse URL without the 'idna' module".toList
  | .wideAuth place run => wideMessage place run

/-- Whether an address says what it starts with: a scheme without points, or a slash. -/
def isRooted (cs : List Char) : Bool :=
  match cs with
  | '/' :: _ => true
  | c :: _ =>
    c.isAlpha && (after? ':' cs).isSome
      && (before ':' cs).all fun d => d.isAlphanum || d = '+' || d = '-'
  | [] => false

/-- The scheme in front of a colon, and what follows. -/
def splitScheme (cs : List Char) : Option (List Char) × List Char :=
  match cs.head?, after? ':' cs with
  | some c, some rest =>
    if c.isAlpha && (before ':' cs).all Target.isSchemeChar then
      (some (Text.lowerAscii (before ':' cs)), rest)
    else (none, cs)
  | _, _ => (none, cs)

/-- What stands between `//` and the path. -/
def authority? : List Char → Option (List Char)
  | '/' :: '/' :: rest =>
    some (rest.takeWhile fun c => !(Target.isAuthorityEnd c || c = '\\'))
  | _ => none

def isUnreserved (c : Char) : Bool :=
  c.isAlphanum || c = '.' || c = '_' || c = '-' || c = '~'

/-- Characters that stand for themselves in user information. -/
def isUserInfo (c : Char) : Bool := isUnreserved c || "!$&'()*+,;=:".toList.contains c

/-- A text with the hexadecimal digits after percent signs in capitals, and how many percent
signs have such digits. -/
def upperTriples : List Char → List Char × Nat
  | '%' :: a :: b :: rest =>
    if isHexDigit a && isHexDigit b then
      let (t, n) := upperTriples rest
      ('%' :: a.toUpper :: b.toUpper :: t, n + 1)
    else
      let (t, n) := upperTriples (a :: b :: rest)
      ('%' :: t, n)
  | c :: rest =>
    let (t, n) := upperTriples rest
    (c :: t, n)
  | [] => ([], 0)

/-- Percent-encodes what is not allowed. Percent signs are kept if all of them have their digits,
and are encoded themselves otherwise. -/
def percentEncode (allowed : Char → Bool) (cs : List Char) : List Char :=
  let (text, triples) := upperTriples cs
  let encoded : Bool := triples = text.count '%'
  text.flatMap fun c =>
    if (encoded && c = '%') || allowed c then [c] else (Utf8.encodeChar c).flatMap FormUrl.percent

/-- A name: anything but delimiters, and percent signs only with their digits. -/
def isRegName : List Char → Bool
  | [] => true
  | '%' :: a :: b :: rest => isHexDigit a && isHexDigit b && isRegName rest
  | c :: rest => !("[]%:/?#".toList.contains c) && isRegName rest

/-- A zone: unreserved characters and percent signs with their digits. -/
def isZone : List Char → Bool
  | [] => true
  | '%' :: a :: b :: rest => isHexDigit a && isHexDigit b && isZone rest
  | c :: rest => isUnreserved c && isZone rest

/-- An address in brackets, given without them. -/
def isBracketed (inside : List Char) : Bool :=
  match after? '%' inside with
  | none => isHextets isLooseQuad inside
  | some zone => zone ≠ [] && isZone zone && isHextets isLooseQuad (before '%' inside)

/-- The port after a host: nothing, or a colon and digits, of which up to five count. -/
def readPort : List Char → Option (Option Nat)
  | [] => some none
  | ':' :: digits =>
    if digits.all isDigit && (Text.dropFront (· = '0') digits).length ≤ 5 then
      some (if digits = [] then none else some (natOfDigits digits))
    else none
  | _ => none

def readHostPort (cs : List Char) : Option (List Char × Option Nat) :=
  match cs with
  | '[' :: rest =>
    match after? ']' rest with
    | none => none
    | some more =>
      if isBracketed (before ']' rest) then
        (readPort more).map fun port => ('[' :: before ']' rest ++ [']'], port)
      else none
  | cs =>
    let host := before ':' cs
    if isRegName host then (readPort (cs.drop host.length)).map fun port => (host, port) else none

/-- Control characters and the blank have no place in a host. -/
def isForbidden (c : Char) : Bool := c.toNat ≤ 0x20 || c.toNat = 0x7F

def isControl (a b : Char) : Bool :=
  (a = '0' || a = '1') && isHexDigit b || a = '7' && (b = 'F' || b = 'f')

def controlTriple? : List Char → Option (List Char)
  | '%' :: a :: b :: rest =>
    if isControl a b then some ['%', a, b] else controlTriple? (a :: b :: rest)
  | _ :: rest => controlTriple? rest
  | [] => none

/-- A name with its percent-encoded characters written plainly where they may be, and with
capitals in the digits of the others. -/
def plainName : List Char → List Char
  | '%' :: a :: b :: rest =>
    let c := Char.ofNat (16 * hexDigitValue a + hexDigitValue b)
    (if isUnreserved c then [c] else ['%', a.toUpper, b.toUpper]) ++ plainName rest
  | c :: rest => c :: plainName rest
  | [] => []

def lowerName : List Char → List Char
  | '%' :: a :: b :: rest => '%' :: a :: b :: lowerName rest
  | c :: rest => c.toLower :: lowerName rest
  | [] => []

def plainZone : List Char → List Char
  | '2' :: '5' :: c :: rest => c :: rest
  | zone => zone

def lowerBracketed (host : List Char) : List Char :=
  match after? '%' host with
  | none => Text.lowerAscii host
  | some zone =>
    Text.lowerAscii (before '%' host)
      ++ '%' :: (percentEncode isUnreserved (plainZone zone.dropLast) ++ [']'])

/-- Where percent-encoded characters stand in a host: anywhere in a name, and behind the sign of
the zone in an address, since that sign is not one of them. -/
def encodedPart (host : List Char) : List Char :=
  if host.head? = some '[' then plainZone ((after? '%' host).getD []).dropLast else host

/-- A host in small letters, unless it is a number; names outside ASCII are refused. -/
def normalHost (host : List Char) : Except Fault (List Char) :=
  match controlTriple? (encodedPart host) with
  | some triple => .error (.hostControl host triple)
  | none =>
    if host.head? = some '[' then .ok (lowerBracketed host)
    else if !host.all fun c => c.toNat < 0x80 then .error .internationalHost
    else if isNumeric host then .ok host
    else .ok (lowerName (plainName host))

structure Place where
  auth : Option (List Char)
  host : Option (List Char)
  port : Option Nat
  deriving DecidableEq, Repr

/-- A host as far as its characters go; the text is the one that is named if it is refused. -/
def checkHost (host : List Char) : Except Fault Unit :=
  match host.find? isForbidden with
  | some c => .error (.hostCharacter host c)
  | none => .ok ()

/-- User information and the host are brought into their normal form where `normal` says so. -/
def readPlace (normal : Bool) (address authority : List Char) : Except Fault Place := do
  let auth := (beforeLast? '@' authority).filter (· ≠ [])
  let place := afterLast '@' authority
  match readHostPort place with
  | none =>
    checkHost place
    throw (.hostOrPort place)
  | some (host, port) =>
    if 65535 < port.getD 0 then throw (.portRange address)
    checkHost host
    if normal then
      return ⟨auth.map (percentEncode isUserInfo), some (← normalHost host), port⟩
    return ⟨auth, some host, port⟩

/-- Characters that have no octet of their own among the first 256. -/
def isWide (c : Char) : Bool := 0x100 ≤ c.toNat

/-- User information is sent octet by octet, so that every character has to have one. -/
def wideFault? (auth : List Char) : Option Fault :=
  match auth.dropWhile fun c => !isWide c with
  | [] => none
  | rest => some (.wideAuth (auth.length - rest.length) (rest.takeWhile isWide))

def isKnownScheme (scheme : List Char) : Bool :=
  scheme = "http".toList || scheme = "https".toList

/-- Where a proxy is, given its scheme and what follows it. -/
def placeOf (address : List Char) (scheme : Option (List Char)) (rest : List Char) :
    Except Fault Place :=
  match (authority? rest).filter (· ≠ []) with
  | none => .ok ⟨none, none, none⟩
  | some authority => readPlace (scheme.all isKnownScheme) address authority

def ofText (cs : List Char) : Except Fault ProxyAddress := do
  let address := if isRooted cs then cs else '/' :: '/' :: cs
  let (scheme, rest) := splitScheme address
  let place ← placeOf address scheme rest
  match place.auth.bind wideFault? with
  | some fault => throw fault
  | none =>
    match scheme with
    | none => throw .noScheme
    | some s =>
      if s = "localhost".toList then throw .noScheme
      else if isKnownScheme s then
        return ⟨s, place.auth, place.host,
          place.port.getD (Target.defaultPort (s = "https".toList))⟩
      else throw (.unknownScheme s)

end ProxyAddress
end FlagPoll.Url
