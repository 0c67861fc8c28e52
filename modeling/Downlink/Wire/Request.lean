import Downlink.Json.Equality
import Downlink.Json.Writer
import Downlink.Wire.Feed

/-!
The requests a link sends. Each carries an id that its response repeats.
-/
namespace Downlink

structure Demand where
  subscribe : Bool
  topic : Topic
  deriving DecidableEq, Repr

inductive Query where
  | outputSchema
  | parameterSchema
  | demand (change : Demand)
  | update (path : String) (value : Json)
  deriving DecidableEq, Repr

structure Request where
  id : Nat
  query : Query
  deriving DecidableEq, Repr

namespace Demand

def name (demand : Demand) : String :=
  match demand.topic, demand.subscribe with
  | .output _, true | .image _, true => "SubscribeOutput"
  | .output _, false | .image _, false => "UnsubscribeOutput"
  | .parameter _, true => "SubscribeParameter"
  | .parameter _, false => "UnsubscribeParameter"

def members (demand : Demand) : List (String × Json) :=
  match demand.topic with
  | .output topic => [("cycler", .str topic.cycler), ("output", (Feed.ofTopic topic).toJson)]
  | .image cycler => [("cycler", .str cycler), ("output", Feed.image.toJson)]
  | .parameter path => [("path", .str path)]

end Demand

namespace Query

def name : Query → String
  | .outputSchema => "GetOutputHierarchy"
  | .parameterSchema => "GetParameterHierarchy"
  | .demand change => change.name
  | .update _ _ => "UpdateParameter"

def fields : Query → List (String × Json)
  | .outputSchema | .parameterSchema => []
  | .demand change => change.members
  | .update path value => [("path", .str path), ("data", value)]

def members (query : Query) : List (String × Json) := ("type", .str query.name) :: query.fields

end Query

namespace Request

def toJson (request : Request) : Json := .obj (("id", .int request.id) :: request.query.members)

def text (request : Request) : String := request.toJson.write

end Request

/-- No order is promised among the topics of a first batch, which come from tables without one. The
order of their texts makes the batch the same each time; all that is known of it elsewhere is that
it permutes. -/
def Demand.sort (demands : List Demand) : List Demand :=
  demands.mergeSort fun a b =>
    (Json.obj (Query.demand a).members).write ≤ (Json.obj (Query.demand b).members).write

end Downlink
