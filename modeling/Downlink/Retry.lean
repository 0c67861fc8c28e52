import Downlink.Duration

/-!
The delays between connection attempts. A counter grows by a factor with every failed attempt; the
delay is the counter, cut off at a maximum.
-/
namespace Downlink

structure Retry where
  initial : Duration
  multiplier : Binary64
  longest : Duration
  deriving DecidableEq, Repr, Inhabited

namespace Retry

def standard : Retry where
  initial := .ofSeconds 1
  multiplier := .finite false (3 * Nat.pow 2 51) (-52)
  longest := .ofSeconds 10

def delay (policy : Retry) (counter : Duration) : Duration := counter.min policy.longest

/-- The counter itself is not cut off; where the product is no duration it becomes the longest. -/
def next (policy : Retry) (counter : Duration) : Duration :=
  (Duration.ofSeconds? (counter.toSeconds.mul policy.multiplier)).getD .longest

def after (policy : Retry) (counter : Duration) : Nat → Duration
  | 0 => counter
  | n + 1 => policy.next (policy.after counter n)

def delays (policy : Retry) (counter : Duration) : Nat → List Duration
  | 0 => []
  | n + 1 => policy.delay counter :: policy.delays (policy.next counter) n

/-- Equality with multipliers compared as numbers, so a policy whose multiplier is a NaN equals
none. -/
def equals (a b : Retry) : Bool :=
  a.initial == b.initial && a.multiplier.equals b.multiplier && a.longest == b.longest

end Retry
end Downlink
