import Downlink.Binary64.Basic

/-!
Decimal text of a binary value: as few digits as read back to it, and of those the nearest ones.
-/
namespace Downlink.Binary64

structure Decimal where
  digits : Nat
  exponent : Int
  deriving DecidableEq, Repr

def ratio (significand : Nat) (exponent : Int) : Nat × Nat :=
  (scale 2 significand exponent, scale 2 1 (-exponent))

/-- The decimal exponent of the leading digit of a positive quotient above `10 ^ -330`. -/
def leadingPlace (num den : Nat) : Int :=
  ((Nat.toDigits 10 (scale 10 num 330 / den)).length : Int) - 331

def Decimal.readsBack (decimal : Decimal) (significand : Nat) (exponent : Int) : Bool :=
  ofDecimal false decimal.digits decimal.exponent == .finite false significand exponent

inductive Tie where
  | toEven
  | away
  deriving DecidableEq, Repr

def Tie.nearest (tie : Tie) (num den : Nat) : Nat :=
  match tie with
  | .toEven => nearestEven num den
  | .away => if 2 * (num % den) < den then num / den else num / den + 1

/-- Of the two decimals with `count` digits around the value, the nearest that reads back. -/
def onGrid? (tie : Tie) (significand : Nat) (exponent : Int) (count : Nat) : Option Decimal :=
  let (num, den) := ratio significand exponent
  let place := leadingPlace num den + 1 - count
  let n := scale 10 num (-place)
  let d := scale 10 den place
  let below : Decimal := ⟨n / d, place⟩
  let above : Decimal := ⟨n / d + 1, place⟩
  let (nearest, other) := if tie.nearest n d = n / d then (below, above) else (above, below)
  if nearest.readsBack significand exponent then some nearest
  else if other.readsBack significand exponent then some other
  else none

def exactly (significand : Nat) (exponent : Int) : Decimal :=
  ⟨scale 5 (scale 2 significand exponent) (-exponent), min exponent 0⟩

def shortest (tie : Tie) (significand : Nat) (exponent : Int) : Decimal :=
  ((List.range 17).findSome? fun k => onGrid? tie significand exponent (k + 1)).getD
    (exactly significand exponent)

/-- A number is written positionally if its leading digit has a place from `lowest` to `highest`. -/
structure Style where
  lowest : Int
  highest : Int
  plus : Bool
  tie : Tie
  deriving DecidableEq, Repr

def zeros (count : Nat) : List Char := List.replicate count '0'

/-- Digits without trailing zeros, the leading one at the place `lead`. A positional number always
has a fraction, a scientific one only if it needs it. -/
def Style.layout (style : Style) (digits : List Char) (lead : Int) : List Char :=
  if style.lowest ≤ lead ∧ lead ≤ style.highest then
    if lead < 0 then '0' :: '.' :: zeros (-lead - 1).toNat ++ digits
    else
      let whole := lead.toNat + 1
      let fraction := digits.drop whole
      digits.take whole ++ zeros (whole - digits.length) ++
        '.' :: (if fraction.isEmpty then ['0'] else fraction)
  else
    let fraction := digits.drop 1
    let sign := if lead < 0 then ['-'] else if style.plus then ['+'] else []
    digits.take 1 ++ (if fraction.isEmpty then [] else '.' :: fraction) ++
      'e' :: sign ++ Nat.toDigits 10 lead.natAbs

def render (style : Style) : Binary64 → List Char
  | .nan => "NaN".toList
  | .infinite negative => (if negative then "-inf" else "inf").toList
  | .finite negative significand exponent =>
    let magnitude :=
      if significand = 0 then ['0', '.', '0']
      else
        let decimal := shortest style.tie significand exponent
        let digits := Nat.toDigits 10 decimal.digits
        let kept := (digits.reverse.dropWhile (· == '0')).reverse
        style.layout kept (decimal.exponent + digits.length - 1)
    if negative then '-' :: magnitude else magnitude

end Downlink.Binary64
