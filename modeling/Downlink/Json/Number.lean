import Downlink.Json.Basic

/-!
Numbers in JSON texts. A fraction or an exponent makes a number binary floating point, and so does
an integer that needs more than 64 bits.

Floating point numbers are read in two steps: the leading digits that fit 64 bits become a binary
value, which is then multiplied or divided by a power of ten. Each step rounds.
-/
namespace Downlink.Json

def scaleStep : Nat := 308

def scaleUp (value : Binary64) (exponent : Nat) : Option Binary64 :=
  if exponent ≤ scaleStep then
    let scaled := value.mul (.ofDecimal false 1 exponent)
    if scaled.isInfinite then none else some scaled
  else if value.isZero then some value
  else none

def scaleDown (value : Binary64) (exponent : Nat) : Binary64 :=
  if exponent ≤ scaleStep then value.div (.ofDecimal false 1 exponent)
  else if value.isZero then value
  else scaleDown (value.div (.ofDecimal false 1 scaleStep)) (exponent - scaleStep)
termination_by exponent
decreasing_by simp only [scaleStep] at *; omega

def float? (negative : Bool) (significand : Nat) (exponent : Int) : Option Json :=
  let value := Binary64.ofNat significand
  let magnitude :=
    if exponent < 0 then some (scaleDown value exponent.natAbs)
    else scaleUp value exponent.natAbs
  magnitude.map fun m => .float (if negative then m.neg else m)

def digitValue (digit : Char) : Nat := digit.toNat - '0'.toNat

/-- Appends digits to a significand while it fits 64 bits; the second result counts the digits that
did not. -/
def gather (significand : Nat) : List Char → Nat × Nat
  | [] => (significand, 0)
  | digit :: rest =>
    let next := significand * 10 + digitValue digit
    if next < Nat.pow 2 64 then gather next rest else (significand, rest.length + 1)

structure Numeral where
  negative : Bool
  whole : List Char
  fraction : Option (List Char)
  exponent : Option Int
  deriving DecidableEq, Repr

/-- Digits of the fraction beyond 64 bits are dropped, digits before the point count in the
exponent. -/
def Numeral.value? (numeral : Numeral) : Option Json :=
  let (whole, beyond) := gather 0 numeral.whole
  match numeral.fraction, numeral.exponent with
  | none, none =>
    if beyond = 0 then
      if !numeral.negative then some (.int whole)
      else if whole = 0 ∨ whole > Nat.pow 2 63 then some (.float (Binary64.ofNat whole).neg)
      else some (.int (-whole))
    else float? numeral.negative whole beyond
  | fraction, exponent =>
    let digits := fraction.getD []
    let (significand, dropped) := gather whole digits
    let places := digits.length - dropped
    float? numeral.negative significand (beyond - places + exponent.getD 0)

def takeDigits (input : List Char) : List Char × List Char :=
  (input.takeWhile Char.isDigit, input.dropWhile Char.isDigit)

def takeWhole? : List Char → Option (List Char × List Char)
  | '0' :: rest => some (['0'], rest)
  | input =>
    match takeDigits input with
    | ([], _) => none
    | found => some found

def takeFraction? : List Char → Option (Option (List Char) × List Char)
  | '.' :: rest =>
    match takeDigits rest with
    | ([], _) => none
    | (digits, rest) => some (some digits, rest)
  | input => some (none, input)

def takeSign : List Char → Bool × List Char
  | '-' :: rest => (true, rest)
  | '+' :: rest => (false, rest)
  | input => (false, input)

def natOfDigits (digits : List Char) : Nat :=
  digits.foldl (fun n digit => n * 10 + digitValue digit) 0

def takeExponent? (input : List Char) : Option (Option Int × List Char) :=
  match input with
  | 'e' :: rest | 'E' :: rest =>
    let (negative, rest) := takeSign rest
    match takeDigits rest with
    | ([], _) => none
    | (digits, rest) =>
      let size : Int := natOfDigits digits
      some (some (if negative then -size else size), rest)
  | _ => some (none, input)

def takeNumber? (input : List Char) : Option (Json × List Char) := do
  let (negative, input) := match input with
    | '-' :: rest => (true, rest)
    | _ => (false, input)
  let (whole, input) ← takeWhole? input
  let (fraction, input) ← takeFraction? input
  let (exponent, input) ← takeExponent? input
  let value ← Numeral.value? ⟨negative, whole, fraction, exponent⟩
  return (value, input)

end Downlink.Json
