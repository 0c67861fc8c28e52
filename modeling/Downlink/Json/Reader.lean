import Downlink.Json.Number

/-!
Reading JSON texts. Blanks are space, tab, line feed and carriage return; arrays and objects nest at
most 127 deep; of equal names in an object the last one counts; strings hold no control characters
and no unpaired surrogates; after the value only blanks may follow.
-/
namespace Downlink.Json

def maxDepth : Nat := 127

def isBlank (c : Char) : Bool := c == ' ' || c == '\t' || c == '\n' || c == '\r'

def skipBlanks (input : List Char) : List Char := input.dropWhile isBlank

def hexValue? (c : Char) : Option Nat :=
  if c.isDigit then some (c.toNat - '0'.toNat)
  else if 'a' ≤ c ∧ c ≤ 'f' then some (c.toNat - 'a'.toNat + 10)
  else if 'A' ≤ c ∧ c ≤ 'F' then some (c.toNat - 'A'.toNat + 10)
  else none

def unit? (a b c d : Char) : Option Nat := do
  let high := (← hexValue? a) * 16 + (← hexValue? b)
  let low := (← hexValue? c) * 16 + (← hexValue? d)
  return high * 256 + low

def shortEscape? : Char → Option Char
  | '"' => some '"'
  | '\\' => some '\\'
  | '/' => some '/'
  | 'b' => some '\x08'
  | 'f' => some '\x0c'
  | 'n' => some '\n'
  | 'r' => some '\r'
  | 't' => some '\t'
  | _ => none

def isHighSurrogate (unit : Nat) : Bool := 0xD800 ≤ unit && unit < 0xDC00

def isLowSurrogate (unit : Nat) : Bool := 0xDC00 ≤ unit && unit < 0xE000

def ofSurrogates (high low : Nat) : Char :=
  Char.ofNat (0x10000 + (high - 0xD800) * 0x400 + (low - 0xDC00))

def takeString? : List Char → Option (List Char × List Char)
  | [] => none
  | '"' :: rest => some ([], rest)
  | '\\' :: 'u' :: a :: b :: c :: d :: rest =>
    match unit? a b c d with
    | none => none
    | some unit =>
      if isLowSurrogate unit then none
      else if isHighSurrogate unit then
        match rest with
        | '\\' :: 'u' :: e :: f :: g :: h :: rest =>
          match unit? e f g h with
          | none => none
          | some low =>
            if isLowSurrogate low then
              (takeString? rest).map fun (text, rest) => (ofSurrogates unit low :: text, rest)
            else none
        | _ => none
      else (takeString? rest).map fun (text, rest) => (Char.ofNat unit :: text, rest)
  | '\\' :: escape :: rest =>
    match shortEscape? escape with
    | none => none
    | some c => (takeString? rest).map fun (text, rest) => (c :: text, rest)
  | c :: rest =>
    if c == '\\' || c < ' ' then none
    else (takeString? rest).map fun (text, rest) => (c :: text, rest)

def takeWord (word : String) (value : Json) (input : List Char) : Option (Json × List Char) :=
  if word.toList.isPrefixOf input then some (value, input.drop word.length) else none

/-- The rest of an array, after its bracket or a comma. The fuel bounds the number of items. -/
def takeItems (item : List Char → Option (Json × List Char)) :
    Nat → List Char → Option (List Json × List Char)
  | 0, _ => none
  | fuel + 1, input =>
    match item input with
    | none => none
    | some (value, rest) =>
      match skipBlanks rest with
      | ',' :: rest => (takeItems item fuel rest).map fun (values, rest) => (value :: values, rest)
      | ']' :: rest => some ([value], rest)
      | _ => none

def takeMember (item : List Char → Option (Json × List Char)) (input : List Char) :
    Option ((String × Json) × List Char) :=
  match skipBlanks input with
  | '"' :: rest =>
    match takeString? rest with
    | none => none
    | some (name, rest) =>
      match skipBlanks rest with
      | ':' :: rest => (item rest).map fun (value, rest) => ((String.ofList name, value), rest)
      | _ => none
  | _ => none

def takeMembers (item : List Char → Option (Json × List Char)) :
    Nat → List Char → Option (List (String × Json) × List Char)
  | 0, _ => none
  | fuel + 1, input =>
    match takeMember item input with
    | none => none
    | some (member, rest) =>
      match skipBlanks rest with
      | ',' :: rest =>
        (takeMembers item fuel rest).map fun (members, rest) => (member :: members, rest)
      | '\x7d' :: rest => some ([member], rest)
      | _ => none

def takeValue (depth : Nat) (input : List Char) : Option (Json × List Char) :=
  match skipBlanks input with
  | 'n' :: rest => takeWord "ull" .null rest
  | 't' :: rest => takeWord "rue" (.bool true) rest
  | 'f' :: rest => takeWord "alse" (.bool false) rest
  | '"' :: rest => (takeString? rest).map fun (text, rest) => (.str (String.ofList text), rest)
  | '[' :: rest =>
    match depth with
    | 0 => none
    | depth + 1 =>
      match skipBlanks rest with
      | ']' :: rest => some (.arr [], rest)
      | rest =>
        (takeItems (takeValue depth) rest.length rest).map fun (items, rest) => (.arr items, rest)
  | '\x7b' :: rest =>
    match depth with
    | 0 => none
    | depth + 1 =>
      match skipBlanks rest with
      | '\x7d' :: rest => some (.obj [], rest)
      | rest =>
        (takeMembers (takeValue depth) rest.length rest).map fun (members, rest) =>
          (.obj (Table.insertAll members []), rest)
  | input => takeNumber? input

def readChars? (input : List Char) : Option Json :=
  match takeValue maxDepth input with
  | some (value, rest) => if (skipBlanks rest).isEmpty then some value else none
  | none => none

def read? (text : String) : Option Json := readChars? text.toList

end Downlink.Json
