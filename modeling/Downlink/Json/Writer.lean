import Downlink.Binary64.Shortest
import Downlink.Json.Basic

/-!
Writing JSON texts: compact, members in the order they stand in, strings with the shortest escapes
and nothing escaped that need not be.
-/
namespace Downlink.Json

/-- Numbers from `0.00001` to below `10 ^ 16` are written positionally. -/
def numberStyle : Binary64.Style where
  lowest := -5
  highest := 15
  plus := true
  tie := .toEven

def hexDigit (n : Nat) : Char := (Nat.toDigits 16 n).headD '0'

def escape (c : Char) : List Char :=
  match c with
  | '"' => ['\\', '"']
  | '\\' => ['\\', '\\']
  | '\x08' => ['\\', 'b']
  | '\x0c' => ['\\', 'f']
  | '\n' => ['\\', 'n']
  | '\r' => ['\\', 'r']
  | '\t' => ['\\', 't']
  | c =>
    if c < ' ' then ['\\', 'u', '0', '0', hexDigit (c.toNat / 16), hexDigit (c.toNat % 16)] else [c]

def renderString (text : List Char) : List Char := '"' :: text.flatMap escape ++ ['"']

def renderInt (n : Int) : List Char :=
  if n < 0 then '-' :: Nat.toDigits 10 n.natAbs else Nat.toDigits 10 n.natAbs

mutual

def render : Json → List Char
  | .null => "null".toList
  | .bool true => "true".toList
  | .bool false => "false".toList
  | .int n => renderInt n
  | .float x => x.render numberStyle
  | .str text => renderString text.toList
  | .arr [] => ['[', ']']
  | .arr (item :: items) => '[' :: render item ++ renderItems items
  | .obj [] => ['\x7b', '\x7d']
  | .obj ((name, value) :: members) =>
    '\x7b' :: renderString name.toList ++ ':' :: render value ++ renderMembers members

def renderItems : List Json → List Char
  | [] => [']']
  | item :: items => ',' :: render item ++ renderItems items

def renderMembers : List (String × Json) → List Char
  | [] => ['\x7d']
  | (name, value) :: members =>
    ',' :: renderString name.toList ++ ':' :: render value ++ renderMembers members

end

def write (value : Json) : String := String.ofList value.render

end Downlink.Json
