/-!
A channel with one sender and many receivers that never waits for any of them. It keeps the latest
events, as many as its capacity rounded up to a power of two; a receiver that falls behind further
is told once how many it missed and goes on with the oldest one kept.
-/
namespace Downlink

structure Broadcast (E : Type) where
  room : Nat
  published : Nat
  /-- The latest of them, the oldest first, at most `room`. -/
  kept : List E
  closed : Bool
  /-- How many events each receiver has behind it; nothing for one that is gone. -/
  receivers : List (Option Nat)
  deriving DecidableEq, Repr

inductive Received (E : Type) where
  | event (event : E)
  | lagged (missed : Nat)
  | empty
  | closed
  deriving DecidableEq, Repr

namespace Broadcast

variable {E : Type}

def powerOfTwo (n : Nat) : Nat := if n ≤ 1 then 1 else Nat.pow 2 (Nat.log2 (n - 1) + 1)

/-- The largest power of two whose places, of 40 bytes each, have addresses of 63 bits. -/
def mostRoom : Nat := Nat.pow 2 57

def new? (capacity : Nat) : Option (Broadcast E) :=
  let room := powerOfTwo capacity
  if capacity = 0 ∨ mostRoom < room then none else some ⟨room, 0, [], false, []⟩

def addReceiver (b : Broadcast E) : Broadcast E × Nat :=
  ({ b with receivers := b.receivers ++ [some b.published] }, b.receivers.length)

def publish (b : Broadcast E) (event : E) : Broadcast E :=
  let kept := b.kept ++ [event]
  if b.closed then b
  else { b with published := b.published + 1, kept := kept.drop (kept.length - b.room) }

def publishAll (b : Broadcast E) (events : List E) : Broadcast E := events.foldl publish b

def oldest (b : Broadcast E) : Nat := b.published - b.kept.length

def receive (b : Broadcast E) (receiver : Nat) : Broadcast E × Option (Received E) :=
  match (b.receivers[receiver]?).join with
  | none => (b, none)
  | some behind =>
    if behind < b.oldest then
      ({ b with receivers := b.receivers.set receiver (some b.oldest) },
        some (.lagged (b.oldest - behind)))
    else
      match b.kept[behind - b.oldest]? with
      | some event =>
        ({ b with receivers := b.receivers.set receiver (some (behind + 1)) }, some (.event event))
      | none => (b, some (if b.closed then .closed else .empty))

def dropReceiver (b : Broadcast E) (receiver : Nat) : Broadcast E :=
  { b with receivers := b.receivers.set receiver none }

def close (b : Broadcast E) : Broadcast E := { b with closed := true }

def drain (b : Broadcast E) (receiver : Nat) : Nat → Broadcast E × List (Received E)
  | 0 => (b, [])
  | fuel + 1 =>
    match b.receive receiver with
    | (b, some (.event event)) =>
      let (b, rest) := b.drain receiver fuel
      (b, .event event :: rest)
    | (b, some (.lagged missed)) =>
      let (b, rest) := b.drain receiver fuel
      (b, .lagged missed :: rest)
    | (b, _) => (b, [])

/-- Everything a receiver can have: one notice of what it missed, then the events kept. -/
def receiveAll (b : Broadcast E) (receiver : Nat) : Broadcast E × List (Received E) :=
  b.drain receiver (b.kept.length + 1)

end Broadcast
end Downlink
