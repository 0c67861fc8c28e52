/-!
The state of a link as its user sees it.
-/
namespace Downlink

inductive Status where
  | disconnected
  | connecting
  | connected
  | disconnecting
  deriving DecidableEq, Repr, Inhabited

namespace Status

/-- The session has a say once the socket is up; until then the socket alone decides. -/
def combine (socket session : Status) : Status :=
  if socket = .connected then session else socket

def name : Status → String
  | .disconnected => "disconnected"
  | .connecting => "connecting"
  | .connected => "connected"
  | .disconnecting => "disconnecting"

end Status
end Downlink
