import Downlink.Binary64.Basic

/-!
Spans of time in whole nanoseconds, and their passage to binary floating point seconds and back.
-/
namespace Downlink

structure Duration where
  nanoseconds : Nat
  deriving DecidableEq, Repr, Inhabited

namespace Duration

def perSecond : Nat := 1000000000

def ofSeconds (seconds : Nat) : Duration := ⟨seconds * perSecond⟩

def zero : Duration := ⟨0⟩

/-- Whole seconds are counted in 64 bits. -/
def tooLong : Nat := Nat.pow 2 64

def longest : Duration := ⟨tooLong * perSecond - 1⟩

def seconds (d : Duration) : Nat := d.nanoseconds / perSecond

def subseconds (d : Duration) : Nat := d.nanoseconds % perSecond

def min (a b : Duration) : Duration := if a.nanoseconds ≤ b.nanoseconds then a else b

def ceilMilliseconds (d : Duration) : Nat := (d.nanoseconds + 999999) / 1000000

def toSeconds (d : Duration) : Binary64 :=
  (Binary64.ofNat d.seconds).add ((Binary64.ofNat d.subseconds).div (.ofNat perSecond))

/-- The nearest whole number of nanoseconds, on a tie the even one. Negative values, a NaN and
values from `2 ^ 64` on have none. -/
def ofSeconds? : Binary64 → Option Duration
  | .finite negative significand exponent =>
    let num := Binary64.scale 2 significand exponent
    let den := Binary64.scale 2 1 (-exponent)
    if significand = 0 then some zero
    else if negative ∨ tooLong * den ≤ num then none
    else some ⟨Binary64.nearestEven (num * perSecond) den⟩
  | _ => none

end Duration
end Downlink
