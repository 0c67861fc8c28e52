import Downlink.Table

/-!
The types of outputs and parameters, as trees, and their flat form: each path with the name of the
type found there.
-/
namespace Downlink

inductive Schema where
  | leaf (name : String)
  | record (fields : List (String × Schema))
  /-- A record whose fields are not described. -/
  | generic
  | optional (inner : Schema)
  | sequence (inner : Schema)
  deriving Repr, Inhabited

abbrev PathTypes := Table String String

namespace Schema

def genericName : String := "GenericStruct"

def optionalName (name : String) : String := "Option<" ++ name ++ ">"

def sequenceName (name : String) : String := "Vec<" ++ name ++ ">"

def joinPath (base name : String) : String := if base.isEmpty then name else base ++ "." ++ name

mutual

/-- Adds the paths of a tree that stands at `base`. A record below the root lists itself; the types
below an option or a sequence are gathered on their own and wrapped. -/
def pathsInto (base : String) (types : PathTypes) : Schema → PathTypes
  | .leaf name => types.insert base name
  | .record fields =>
    fieldPathsInto base (if base.isEmpty then types else types.insert base genericName) fields
  | .generic => types.insert base genericName
  | .optional inner =>
    types.insertAll ((pathsInto base [] inner).map fun row => (row.1, optionalName row.2))
  | .sequence inner =>
    types.insertAll ((pathsInto base [] inner).map fun row => (row.1, sequenceName row.2))

def fieldPathsInto (base : String) (types : PathTypes) : List (String × Schema) → PathTypes
  | [] => types
  | (name, field) :: fields =>
    fieldPathsInto base (pathsInto (joinPath base name) types field) fields

end

def paths (schema : Schema) (base : String) : PathTypes := schema.pathsInto base []

end Schema
end Downlink
