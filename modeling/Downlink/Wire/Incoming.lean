import Downlink.Fault
import Downlink.Json.Equality
import Downlink.Json.Reader
import Downlink.Json.Writer
import Downlink.Wire.Feed

/-!
The messages a link receives. An object with a member `id` answers a request; any other object is a
push, which nobody asked for.
-/
namespace Downlink

structure Reply where
  id : Nat
  ok : Bool
  reason : Option String
  /-- Every member but the three above. -/
  payload : List (String × Json)
  deriving DecidableEq, Repr

structure Reading where
  feed : Feed
  value : Json
  deriving DecidableEq, Repr

inductive Push where
  | outputs (cycler : String) (readings : List Reading) (imageId : Option Nat)
  | parameter (path : String) (value : Json)
  deriving DecidableEq, Repr

inductive Message where
  | reply (reply : Reply)
  | push (push : Push)
  deriving DecidableEq, Repr

def Reply.cause (reply : Reply) : String := reply.reason.getD "no reason given"

def Json.optionalMember? {V : Type} (read : Json → Option V) (key : String)
    (members : List (String × Json)) : Option (Option V) :=
  match Table.get? key members with
  | none | some .null => some none
  | some value => (read value).map some

def Reply.ofMembers? (members : List (String × Json)) : Option Reply :=
  match (Table.get? "id" members).bind (Json.natBelow? (Nat.pow 2 64)), Table.get? "ok" members,
    Json.optionalMember? Json.text? "reason" members with
  | some id, some (.bool ok), some reason =>
    some ⟨id, ok, reason, Table.erase "id" (Table.erase "ok" (Table.erase "reason" members))⟩
  | _, _, _ => none

def Reading.ofJson? : Json → Option Reading
  | .obj members =>
    match (Table.get? "output" members).bind (Feed.ofJson? .namedOrNumbered),
      Table.get? "data" members with
    | some feed, some value => some ⟨feed, value⟩
    | _, _ => none
  | .arr [feed, value] => (Feed.ofJson? .namedOrNumbered feed).map fun feed => ⟨feed, value⟩
  | _ => none

/-- The list of readings may be missing but not null. -/
def Push.readings? (members : List (String × Json)) : Option (List Reading) :=
  match Table.get? "outputs" members with
  | none => some []
  | some (.arr items) => items.mapM Reading.ofJson?
  | some _ => none

def Push.ofMembers? (members : List (String × Json)) : Option Push :=
  match Table.get? "type" members with
  | some (.str "OutputsUpdated") =>
    match (Table.get? "cycler" members).bind Json.text?, readings? members,
      Json.optionalMember? (Json.natBelow? (Nat.pow 2 32)) "image_id" members with
    | some cycler, some readings, some imageId => some (.outputs cycler readings imageId)
    | _, _, _ => none
  | some (.str "ParameterUpdated") =>
    match (Table.get? "path" members).bind Json.text?, Table.get? "data" members with
    | some path, some value => some (.parameter path value)
    | _, _ => none
  | _ => none

def Message.ofJson : Json → Except Fault Message
  | .obj members =>
    let message :=
      if (Table.get? "id" members).isSome then (Reply.ofMembers? members).map Message.reply
      else (Push.ofMembers? members).map Message.push
    match message with
    | some message => .ok message
    | none => .error (.json .shape)
  | value => .error (.unexpectedFormat ("expected a JSON object, got " ++ value.write))

def Message.read (text : String) : Except Fault Message :=
  match Json.read? text with
  | some value => ofJson value
  | none => .error (.json .grammar)

end Downlink
