import Downlink.Fault
import Downlink.Json.Tagged
import Downlink.Schema

/-!
Schemas in JSON. Members of no meaning are skipped; one bad node anywhere spoils the whole.
-/
namespace Downlink.Schema

inductive Kind where
  | leaf
  | record
  | generic
  | optional
  | sequence
  deriving DecidableEq, Repr

def kinds : List (String × Kind) :=
  [("Primary", .leaf), ("Struct", .record), ("GenericStruct", .generic), ("Option", .optional),
    ("Vec", .sequence)]

mutual

def ofJson? (form : Json.TagForm) : Json → Option Schema
  | .obj members =>
    match Json.memberVariant? form kinds members with
    | none => none
    | some .leaf => ((Table.get? "name" members).bind Json.text?).map .leaf
    | some .record => (fieldsAt? "fields" members).map .record
    | some .generic => some .generic
    | some .optional => (ofMember? "nested" members).map .optional
    | some .sequence => (ofMember? "nested" members).map .sequence
  | .arr (tag :: fields) =>
    match Json.variant? form kinds tag with
    | none => none
    | some .leaf =>
      match fields with
      | [.str name] => some (.leaf name)
      | _ => none
    | some .record =>
      match fields with
      | [.obj members] => (ofMembers? .namedOrNumbered members).map .record
      | _ => none
    | some .generic => if fields.isEmpty then some .generic else none
    | some .optional =>
      match fields with
      | [inner] => (ofJson? .namedOrNumbered inner).map .optional
      | _ => none
    | some .sequence =>
      match fields with
      | [inner] => (ofJson? .namedOrNumbered inner).map .sequence
      | _ => none
  | _ => none

def ofMember? (key : String) : List (String × Json) → Option Schema
  | [] => none
  | (name, value) :: members =>
    if name = key then ofJson? .namedOrNumbered value else ofMember? key members

def fieldsAt? (key : String) : List (String × Json) → Option (List (String × Schema))
  | [] => none
  | (name, value) :: members =>
    if name = key then
      match value with
      | .obj fields => ofMembers? .namedOrNumbered fields
      | _ => none
    else fieldsAt? key members

def ofMembers? (form : Json.TagForm) : List (String × Json) → Option (List (String × Schema))
  | [] => some []
  | (name, value) :: members =>
    match ofJson? form value, ofMembers? form members with
    | some field, some fields => some ((name, field) :: fields)
    | _, _ => none

end

/-- The path types in one field of a response: an object of top level names and their schemas,
flattened as a record at the root. -/
def pathTypes (field : String) (payload : List (String × Json)) : Except Fault PathTypes :=
  match Table.get? field payload with
  | none => .error (.missingField field)
  | some (.obj members) =>
    match ofMembers? .named members with
    | some fields => .ok ((Schema.record fields).paths "")
    | none => .error (.json .shape)
  | some _ => .error (.json .shape)

end Downlink.Schema
