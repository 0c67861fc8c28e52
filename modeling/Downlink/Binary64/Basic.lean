/-!
Binary floating point with 53 bit significands. Every result is computed exactly on natural numbers
and rounded once, to the nearest representable value and on a tie to the even significand.
-/
namespace Downlink

/-- A finite value is `significand * 2 ^ exponent` with a sign. Rounding yields a significand below
`2 ^ 53` and an exponent from -1074 to 971, and a significand of at least `2 ^ 52` unless the
exponent is -1074, so equal values other than the two zeros are equal as terms. -/
inductive Binary64 where
  | nan
  | infinite (negative : Bool)
  | finite (negative : Bool) (significand : Nat) (exponent : Int)
  deriving DecidableEq, Repr, Inhabited

namespace Binary64

/-- The integer nearest to `num / den`, on a tie the even one. -/
def nearestEven (num den : Nat) : Nat :=
  let quotient := num / den
  let twice := 2 * (num % den)
  if twice < den ∨ (twice = den ∧ quotient % 2 = 0) then quotient else quotient + 1

/-- `n * base ^ exponent`, and `n` itself for a negative exponent. A quotient is scaled by scaling
one of its two parts. -/
def scale (base n : Nat) (exponent : Int) : Nat := n * Nat.pow base exponent.toNat

def shifted (num den : Nat) (exponent : Int) : Nat × Nat :=
  (scale 2 num (-exponent), scale 2 den exponent)

def leastFull : Nat := Nat.pow 2 52

/-- The exponent of the last place of a positive quotient: the one that leaves 53 bits, but never
below that of the smallest values. -/
def lastPlace (num den : Nat) : Int :=
  let guess : Int := (Nat.log2 num : Int) - (Nat.log2 den : Int) - 52
  let (n, d) := shifted num den guess
  max (-1074) (if n < d * leastFull then guess - 1 else guess)

def zero (negative : Bool) : Binary64 := .finite negative 0 (-1074)

/-- The value nearest to `num / den` for a positive `den`; beyond the largest one, infinity. -/
def round (negative : Bool) (num den : Nat) : Binary64 :=
  if num = 0 then zero negative
  else
    let place := lastPlace num den
    let (n, d) := shifted num den place
    let significand := nearestEven n d
    let (significand, place) :=
      if significand = 2 * leastFull then (leastFull, place + 1) else (significand, place)
    if place > 971 then .infinite negative else .finite negative significand place

def ofNat (n : Nat) : Binary64 := round false n 1

/-- The value nearest to `digits * 10 ^ exponent`. Far outside the range the result no longer
depends on the power of ten, which is then not computed. -/
def ofDecimal (negative : Bool) (digits : Nat) (exponent : Int) : Binary64 :=
  if digits = 0 then zero negative
  else if exponent > 400 then .infinite negative
  else if (Nat.log2 digits : Int) + 3 * exponent < -1200 then zero negative
  else round negative (scale 10 digits exponent) (scale 10 1 (-exponent))

def neg : Binary64 → Binary64
  | .nan => .nan
  | .infinite s => .infinite (!s)
  | .finite s m e => .finite (!s) m e

def isZero : Binary64 → Bool
  | .finite _ m _ => m == 0
  | _ => false

def isInfinite : Binary64 → Bool
  | .infinite _ => true
  | _ => false

def mul : Binary64 → Binary64 → Binary64
  | .nan, _ | _, .nan => .nan
  | .infinite s, .infinite t => .infinite (s ^^ t)
  | .infinite s, .finite t m _ | .finite s m _, .infinite t =>
    if m = 0 then .nan else .infinite (s ^^ t)
  | .finite s m e, .finite t n f =>
    let exponent := e + f
    round (s ^^ t) (scale 2 (m * n) exponent) (scale 2 1 (-exponent))

def div : Binary64 → Binary64 → Binary64
  | .nan, _ | _, .nan => .nan
  | .infinite _, .infinite _ => .nan
  | .infinite s, .finite t _ _ => .infinite (s ^^ t)
  | .finite s _ _, .infinite t => zero (s ^^ t)
  | .finite s m e, .finite t n f =>
    if n = 0 then (if m = 0 then .nan else .infinite (s ^^ t))
    else
      let exponent := e - f
      round (s ^^ t) (scale 2 m exponent) (scale 2 n (-exponent))

/-- A sum that cancels is positive zero; two negative zeros add up to a negative one. -/
def add : Binary64 → Binary64 → Binary64
  | .nan, _ | _, .nan => .nan
  | .infinite s, .infinite t => if s = t then .infinite s else .nan
  | .infinite s, .finite _ _ _ | .finite _ _ _, .infinite s => .infinite s
  | .finite s m e, .finite t n f =>
    let place := min e f
    let signed (negative : Bool) (k : Nat) : Int := if negative then -(k : Int) else k
    let sum := signed s (scale 2 m (e - place)) + signed t (scale 2 n (f - place))
    if sum = 0 then zero (s && t)
    else round (sum < 0) (scale 2 sum.natAbs place) (scale 2 1 (-place))

/-- Numerical equality: a NaN differs from all, itself included, and the two zeros are equal. -/
def equals : Binary64 → Binary64 → Bool
  | .nan, _ => false
  | a, b => a == b || (a.isZero && b.isZero)

end Binary64
end Downlink
