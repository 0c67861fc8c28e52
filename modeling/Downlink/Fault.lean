import Downlink.Json.Basic

/-!
Everything that can go wrong on a link. No fault ends it.
-/
namespace Downlink

inductive Fault where
  | socket (detail : String)
  | connectionFailed (reason : String)
  | unmatchedResponse (id : Nat)
  | frameTooShort (length : Nat)
  | json (defect : Json.Defect)
  | missingField (field : String)
  | unexpectedFormat (detail : String)
  | rejected (request : String) (reason : String)
  | notConnected
  | stopped
  deriving DecidableEq, Repr

namespace Fault

def message : Fault → String
  | .socket detail => "protocol error: websocket error: " ++ detail
  | .connectionFailed reason => "protocol error: connection failed: " ++ reason
  | .unmatchedResponse id => "protocol error: response for unknown request id " ++ toString id
  | .frameTooShort length =>
    "protocol error: binary frame of " ++ toString length ++
      " bytes is shorter than the 8 byte header"
  | .json .grammar => "parse error: JSON parse error: not a JSON text"
  | .json .shape => "parse error: JSON parse error: not of the expected form"
  | .missingField field => "parse error: missing field in message: " ++ field
  | .unexpectedFormat detail => "parse error: unexpected message format: " ++ detail
  | .rejected request reason => request ++ " rejected: " ++ reason
  | .notConnected => "not connected"
  | .stopped => "link client has shut down"

end Fault
end Downlink
