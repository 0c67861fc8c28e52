/-!
Urls: `scheme://authority/path?query#fragment`, an authority alone, or a path alone. An attempt to
open one reaches the network only if it is well formed, has an authority, and tells the port, by
itself or by its scheme.
-/
namespace Downlink

inductive Refusal where
  | empty
  | tooLong
  | badCharacter
  /-- Nothing stands where the authority belongs, or something follows an authority that has no
  scheme. -/
  | badForm
  | badAuthority
  | longScheme
  | noHost
  | badScheme
  deriving DecidableEq, Repr

def Refusal.message : Refusal → String
  | .empty => "HTTP format error: empty string"
  | .tooLong => "HTTP format error: uri too long"
  | .badCharacter => "HTTP format error: invalid uri character"
  | .badForm => "HTTP format error: invalid format"
  | .badAuthority => "HTTP format error: invalid authority"
  | .longScheme => "HTTP format error: scheme too long"
  | .noHost => "URL error: No host name in the URL"
  | .badScheme => "URL error: URL scheme not supported"

structure Address where
  scheme : Option (List Char)
  /-- Who asks, up to an `@`, then the host, then a colon and the port. Empty in a bare path. -/
  authority : List Char
  deriving DecidableEq, Repr

namespace Address

/-- In bytes. -/
def longestUrl : Nat := 65534

def longestScheme : Nat := 64

def isSchemeCharacter (c : Char) : Bool := c.isAlphanum || "+-.~".toList.contains c

def endsAuthority (c : Char) : Bool := c == '/' || c == '?' || c == '#'

def isAuthorityCharacter (c : Char) : Bool :=
  c.isAlphanum || "!$&'()*+,-.:;=@[]_~".toList.contains c

def isPlain (c : Char) : Bool := ' ' < c && c != '\x7f'

def isPathCharacter (c : Char) : Bool := isPlain c && !"<>`".toList.contains c

def isQueryCharacter (c : Char) : Bool := isPlain c && !"<>\"".toList.contains c

/-- What stands before `://`, if that is the form of a scheme, and what follows. The scheme may be
empty, but `://` alone has none. -/
def splitScheme (url : List Char) : Option (List Char) × List Char :=
  let scheme := url.takeWhile isSchemeCharacter
  match url.drop scheme.length with
  | ':' :: '/' :: '/' :: rest =>
    if scheme.isEmpty ∧ rest.isEmpty then (none, url) else (some scheme, rest)
  | _ => (none, url)

structure Scan where
  /-- Colons that may stand before a port. -/
  colons : Nat
  opened : Bool
  closed : Bool
  /-- A percent sign that may stand in a host. -/
  percent : Bool
  deriving DecidableEq, Repr

/-- Colons of an address in brackets of eight parts and of the port after it. -/
def mostColons : Nat := 8

/-- Colons and percent signs up to an `@` or a closing bracket belong to no host and no port. -/
def Scan.step (s : Scan) (c : Char) : Except Refusal Scan :=
  match c with
  | ':' => if s.colons < mostColons then .ok { s with colons := s.colons + 1 }
    else .error .badAuthority
  | '[' => if s.percent || s.opened then .error .badAuthority else .ok { s with opened := true }
  | ']' => if !s.opened || s.closed then .error .badAuthority
    else .ok { s with closed := true, colons := 0, percent := false }
  | '@' => .ok { s with colons := 0, percent := false }
  | '%' => .ok { s with percent := true }
  | c => if isAuthorityCharacter c then .ok s else .error .badCharacter

/-- The first bad character counts; then brackets have to be closed, at most one colon stands
before the port, and something follows an `@`. -/
def checkAuthority (authority : List Char) : Except Refusal Unit := do
  let s ← authority.foldlM Scan.step ⟨0, false, false, false⟩
  if s.opened ≠ s.closed ∨ 1 < s.colons ∨ s.percent ∨ authority.getLast? = some '@' then
    .error .badAuthority
  else .ok ()

def checkPath (path : List Char) : Except Refusal Unit :=
  let unfragmented := path.takeWhile (· != '#')
  let (place, query) := unfragmented.span (· != '?')
  if place.all isPathCharacter && query.all isQueryCharacter then .ok () else .error .badCharacter

def readParts (url : List Char) : Except Refusal Address := do
  if url.head? = some '/' then
    checkPath url
    return ⟨none, []⟩
  else if url = ['*'] then
    return ⟨none, []⟩
  let (scheme, rest) := splitScheme url
  let authority := rest.takeWhile fun c => !endsAuthority c
  match scheme with
  | none =>
    checkAuthority authority
    if authority.length < url.length then
      .error (if url.length = 1 then .badCharacter else .badForm)
    else return ⟨none, authority⟩
  | some scheme =>
    if longestScheme < scheme.length then .error .longScheme
    else if rest.isEmpty then .error .empty
    else
      checkAuthority authority
      if authority.isEmpty then .error .badForm
      else
        checkPath (rest.drop authority.length)
        return ⟨some scheme, authority⟩

def read (url : String) : Except Refusal Address :=
  if url.isEmpty then .error .empty
  else if longestUrl < url.utf8ByteSize then .error .tooLong
  else readParts url.toList

/-- The number after the last colon, which may have a plus sign, if it has 16 bits. -/
def port? (authority : List Char) : Option Nat :=
  if authority.contains ':' then
    let text := (authority.reverse.takeWhile (· != ':')).reverse
    let digits := if text.head? = some '+' then text.drop 1 else text
    let number := Nat.ofDigitChars 10 digits 0
    if digits.all Char.isDigit ∧ digits ≠ [] ∧ number < Nat.pow 2 16 then some number else none
  else none

def knownSchemes : List String := ["ws", "wss"]

def checkReach (address : Address) : Except Refusal Unit :=
  if address.authority.isEmpty then .error .noHost
  else if (port? address.authority).isSome then .ok ()
  else if address.scheme.any fun scheme => knownSchemes.contains (String.ofList scheme) then .ok ()
  else .error .badScheme

def refusal? (url : String) : Option Refusal :=
  match read url >>= checkReach with
  | .ok () => none
  | .error refusal => some refusal

end Address
end Downlink
