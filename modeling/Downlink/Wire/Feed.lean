import Downlink.Json.Tagged
import Downlink.Topic

/-!
How messages name one output of a cycler.
-/
namespace Downlink

inductive Feed where
  | main (path : String)
  | additional (path : String)
  | image
  deriving DecidableEq, Repr

namespace Feed

inductive Kind where
  | main
  | additional
  | image
  deriving DecidableEq, Repr

def kinds : List (String × Kind) :=
  [("Main", .main), ("Additional", .additional), ("Image", .image)]

def ofTopic (topic : OutputTopic) : Feed :=
  match topic.kind with
  | .main => .main topic.path
  | .additional => .additional topic.path

def topic? (cycler : String) : Feed → Option OutputTopic
  | .main path => some ⟨cycler, .main, path⟩
  | .additional path => some ⟨cycler, .additional, path⟩
  | .image => none

def toJson : Feed → Json
  | .main path => .obj [("type", .str "Main"), ("path", .str path)]
  | .additional path => .obj [("type", .str "Additional"), ("path", .str path)]
  | .image => .obj [("type", .str "Image")]

def ofKind? (path : Option String) : Kind → Option Feed
  | .main => path.map .main
  | .additional => path.map .additional
  | .image => some .image

def ofJson? (form : Json.TagForm) : Json → Option Feed
  | .obj members =>
    (Json.memberVariant? form kinds members).bind fun kind =>
      ofKind? ((Table.get? "path" members).bind Json.text?) kind
  | .arr (tag :: fields) =>
    match Json.variant? form kinds tag, fields with
    | some .image, [] => some .image
    | some .main, [.str path] => some (.main path)
    | some .additional, [.str path] => some (.additional path)
    | _, _ => none
  | _ => none

end Feed

/-- The kind of an output on its own: its name, or an object whose one member has that name and no
value. -/
def OutputKind.ofJson? : Json → Option OutputKind
  | .str "Main" | .obj [("Main", .null)] => some .main
  | .str "Additional" | .obj [("Additional", .null)] => some .additional
  | _ => none

end Downlink
