import Downlink.Roster
import Downlink.Topic

/-!
The rosters of a link: one for each kind of topic, so that topics of different kinds with one text
never meet.
-/
namespace Downlink

structure Audience where
  outputs : Roster OutputTopic Unit
  images : Roster String Unit
  parameters : Roster String Unit
  deriving DecidableEq, Repr

namespace Audience

def empty : Audience := ⟨.empty, .empty, .empty⟩

def join (audience : Audience) (topic : Topic) (id : Nat) : Audience × Bool :=
  match topic with
  | .output topic =>
    let (outputs, first) := audience.outputs.join topic id ()
    ({ audience with outputs }, first)
  | .image cycler =>
    let (images, first) := audience.images.join cycler id ()
    ({ audience with images }, first)
  | .parameter path =>
    let (parameters, first) := audience.parameters.join path id ()
    ({ audience with parameters }, first)

def leave (audience : Audience) (topic : Topic) (id : Nat) : Audience × Option Bool :=
  match topic with
  | .output topic =>
    let (outputs, last) := audience.outputs.leave topic id
    ({ audience with outputs }, last)
  | .image cycler =>
    let (images, last) := audience.images.leave cycler id
    ({ audience with images }, last)
  | .parameter path =>
    let (parameters, last) := audience.parameters.leave path id
    ({ audience with parameters }, last)

def ids (audience : Audience) : Topic → List Nat
  | .output topic => audience.outputs.ids topic
  | .image cycler => audience.images.ids cycler
  | .parameter path => audience.parameters.ids path

def contains (audience : Audience) : Topic → Bool
  | .output topic => audience.outputs.contains topic
  | .image cycler => audience.images.contains cycler
  | .parameter path => audience.parameters.contains path

def topics (audience : Audience) : List Topic :=
  audience.outputs.topics.map .output ++ audience.images.topics.map .image ++
    audience.parameters.topics.map .parameter

end Audience
end Downlink
