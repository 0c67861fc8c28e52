/-!
What can be subscribed to: one output of a cycler, the images of a cycler, or a parameter.
-/
namespace Downlink

inductive OutputKind where
  | main
  | additional
  deriving DecidableEq, Repr

structure OutputTopic where
  cycler : String
  kind : OutputKind
  path : String
  deriving DecidableEq, Repr

inductive Topic where
  | output (topic : OutputTopic)
  | image (cycler : String)
  | parameter (path : String)
  deriving DecidableEq, Repr

def OutputKind.name : OutputKind → String
  | .main => "Main"
  | .additional => "Additional"

def OutputKind.rank : OutputKind → Nat
  | .main => 0
  | .additional => 1

namespace OutputTopic

def display (topic : OutputTopic) : String :=
  topic.cycler ++ "." ++ topic.kind.name ++ "." ++ topic.path

/-- By cycler, then kind, then path; texts by code point. -/
def order (a b : OutputTopic) : Ordering :=
  (compare a.cycler b.cycler).then <|
    (compare a.kind.rank b.kind.rank).then (compare a.path b.path)

end OutputTopic

namespace Topic

def display : Topic → String
  | .output topic => "output " ++ topic.display
  | .image cycler => "image " ++ cycler
  | .parameter path => "parameter " ++ path

/-- Two outputs are ordered, and the images of two cyclers are; no others. -/
def order? : Topic → Topic → Option Ordering
  | .output a, .output b => some (a.order b)
  | .image a, .image b => some (compare a b)
  | _, _ => none

end Topic
end Downlink
