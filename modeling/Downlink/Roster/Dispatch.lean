import Downlink.Roster

/-!
Members that change the roster while they are being called. A call goes to the members that a topic
had when it began, whatever they do to the roster meanwhile.
-/
namespace Downlink

inductive Signal where
  | data
  | fault
  deriving DecidableEq, Repr

/-- A change that a member makes; one that adds a member says what that member does in turn. -/
inductive Edit (K : Type) where
  | join (topic : K) (id : Nat) (onData onFault : List (Edit K))
  | leave (topic : K) (id : Nat)
  deriving Repr

structure Conduct (K : Type) where
  onData : List (Edit K)
  onFault : List (Edit K)
  deriving Repr

def Conduct.edits {K : Type} (conduct : Conduct K) : Signal → List (Edit K)
  | .data => conduct.onData
  | .fault => conduct.onFault

def Edit.change {K : Type} : Edit K → Roster.Change K (Conduct K)
  | .join topic id onData onFault => .join topic id ⟨onData, onFault⟩
  | .leave topic id => .leave topic id

namespace Roster

structure Visit (K S : Type) where
  called : Nat × S
  signal : Signal
  changes : List (Change K S)

/-- What members do when they are called. It may depend on the visits so far, and with them on the
roster as they left it and on whatever else the members share. -/
abbrev Behaviour (K S : Type) := List (Visit K S) → Signal → Nat × S → List (Change K S)

variable {K S : Type} [DecidableEq K]

def visit (behaviour : Behaviour K S) (signal : Signal) (done : Roster K S × List (Visit K S))
    (called : Nat × S) : Roster K S × List (Visit K S) :=
  let changes := behaviour done.2 signal called
  (changes.foldl change done.1, done.2 ++ [⟨called, signal, changes⟩])

def visitAll (roster : Roster K S) (behaviour : Behaviour K S) (signal : Signal)
    (called : List (Nat × S)) : Roster K S × List (Visit K S) :=
  called.foldl (visit behaviour signal) (roster, [])

/-- Calls the members that a topic has now, in the order that `order` puts them into. -/
def callMembers (roster : Roster K S) (behaviour : Behaviour K S)
    (order : List (Nat × S) → List (Nat × S)) (signal : Signal) (topic : K) :
    Roster K S × List (Visit K S) :=
  roster.visitAll behaviour signal (order (roster.members topic))

def scripted : Behaviour K (Conduct K) := fun _ signal called =>
  (called.2.edits signal).map Edit.change

def dispatch (roster : Roster K (Conduct K)) (signal : Signal) (topic : K) :
    Roster K (Conduct K) × List Nat :=
  let (roster, visits) := roster.callMembers scripted id signal topic
  (roster, visits.map (·.called.1))

end Roster
end Downlink
