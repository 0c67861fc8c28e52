/-!
Who listens to what. A roster holds a group of members for each topic that anybody listens to, and
says when a topic gains its first and loses its last member.
-/
namespace Downlink

/-- Topics are held once, with a group that is not empty and in which an id stands once. -/
structure Roster (K : Type) (S : Type) where
  groups : List (K × List (Nat × S))
  deriving DecidableEq, Repr

namespace Roster

inductive Change (K S : Type) where
  | join (topic : K) (id : Nat) (member : S)
  | leave (topic : K) (id : Nat)
  deriving DecidableEq, Repr

variable {K S : Type} [DecidableEq K]

def empty : Roster K S := ⟨[]⟩

def members (roster : Roster K S) (topic : K) : List (Nat × S) :=
  ((roster.groups.find? (·.1 = topic)).map (·.2)).getD []

def contains (roster : Roster K S) (topic : K) : Bool :=
  roster.groups.any (·.1 = topic)

def ids (roster : Roster K S) (topic : K) : List Nat := (roster.members topic).map (·.1)

def topics (roster : Roster K S) : List K := roster.groups.map (·.1)

def pairs (roster : Roster K S) : List (K × Nat) :=
  roster.groups.flatMap fun group => group.2.map fun member => (group.1, member.1)

/-- Adds a member, or replaces the one of the same id. -/
def seat (id : Nat) (member : S) (group : List (Nat × S)) : List (Nat × S) :=
  if group.any (·.1 = id) then group.map fun m => if m.1 = id then (id, member) else m
  else group ++ [(id, member)]

/-- The roster with one more member, and whether that is the first of its topic. -/
def join (roster : Roster K S) (topic : K) (id : Nat) (member : S) : Roster K S × Bool :=
  if roster.contains topic then
    (⟨roster.groups.map fun group =>
      if group.1 = topic then (topic, seat id member group.2) else group⟩, false)
  else (⟨roster.groups ++ [(topic, [(id, member)])]⟩, true)

/-- The roster without a member, and whether that was the last of its topic. A topic without members
has no answer; an id that is not there leaves the roster as it is. -/
def leave (roster : Roster K S) (topic : K) (id : Nat) : Roster K S × Option Bool :=
  if roster.contains topic then
    let rest := (roster.members topic).filter (·.1 ≠ id)
    if rest.isEmpty then (⟨roster.groups.filter (·.1 ≠ topic)⟩, some true)
    else
      (⟨roster.groups.map fun group => if group.1 = topic then (topic, rest) else group⟩,
        some false)
  else (roster, none)

def change (roster : Roster K S) : Change K S → Roster K S
  | .join topic id member => (roster.join topic id member).1
  | .leave topic id => (roster.leave topic id).1

end Roster
end Downlink
