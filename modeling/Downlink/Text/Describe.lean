import Downlink.Binary64.Shortest
import Downlink.Link
import Downlink.Text.Quoted

/-!
One line descriptions of a link and its parts, for logs.
-/
namespace Downlink

namespace Text

def record (name : String) (fields : List (String × String)) (complete : Bool) : String :=
  let shown := fields.map fun field => field.1 ++ ": " ++ field.2
  name ++ " \x7b " ++ ", ".intercalate (if complete then shown else shown ++ [".."]) ++ " \x7d"

def option (text : Option String) : String :=
  match text with
  | none => "None"
  | some text => "Some(" ++ text ++ ")"

def bool (b : Bool) : String := if b then "true" else "false"

end Text

def Duration.inUnit (nanoseconds unit : Nat) (name : String) : String :=
  let digits := (Nat.toDigits 10 (unit + nanoseconds % unit)).drop 1
  let fraction := (digits.reverse.dropWhile (· == '0')).reverse
  Nat.repr (nanoseconds / unit) ++
    (if fraction.isEmpty then "" else "." ++ String.ofList fraction) ++ name

def Duration.describe (d : Duration) : String :=
  if Duration.perSecond ≤ d.nanoseconds then inUnit d.nanoseconds Duration.perSecond "s"
  else if 1000000 ≤ d.nanoseconds then inUnit d.nanoseconds 1000000 "ms"
  else if 1000 ≤ d.nanoseconds then inUnit d.nanoseconds 1000 "µs"
  else inUnit d.nanoseconds 1 "ns"

/-- Numbers from `0.0001` to below `10 ^ 16` are written positionally. -/
def Binary64.plainStyle : Binary64.Style where
  lowest := -4
  highest := 15
  plus := false
  tie := .away

def Status.label : Status → String
  | .disconnected => "Disconnected"
  | .connecting => "Connecting"
  | .connected => "Connected"
  | .disconnecting => "Disconnecting"

def Dialer.State.label : Dialer.State → String
  | .idle => "WantsDisconnectedUnsetUrl"
  | .lacksUrl => "WantsConnectUnsetUrl"
  | .connecting => "Connecting"
  | .connected => "Connected"
  | .backOff => "BackOff"
  | .disconnecting => "Disconnecting"
  | .redialing => "ConnectAfterDisconnect"
  | .disconnected => "Disconnected"

def Session.State.label : Session.State → String
  | .offline => "Disconnected"
  | .fetching => "GettingHierarchies"
  | .subscribing => "Subscribing"
  | .subscribed => "Subscribed"

def Retry.describe (policy : Retry) : String :=
  Text.record "BackoffPolicy"
    [("initial_delay", policy.initial.describe),
      ("multiplier", String.ofList (policy.multiplier.render Binary64.plainStyle)),
      ("max_delay", policy.longest.describe)] true

def Dialer.describe (d : Dialer) : String :=
  Text.record "TransportStateMachine"
    [("state", d.state.label), ("connect", Text.bool d.wanted),
      ("url", Text.option (d.url.map Text.quote)),
      ("socket", Text.option (d.socket.map fun socket => "SocketId(" ++ Nat.repr socket ++ ")")),
      ("next_socket", Nat.repr d.nextSocket), ("timer_pending", Text.bool d.timerSet),
      ("backoff", d.counter.describe), ("policy", d.policy.describe)] true

def Roster.describe {K S : Type} (roster : Roster K S) : String :=
  Text.record "SubscriptionRegistry" [("topic_count", Nat.repr roster.groups.length)] true

def Audience.describe (audience : Audience) : String :=
  Text.record "Subscriptions"
    [("outputs", audience.outputs.describe), ("images", audience.images.describe),
      ("parameters", audience.parameters.describe)] true

def Session.describe (s : Session) : String :=
  Text.record "ProtocolStateMachine"
    [("state", s.state.label), ("pending", Nat.repr s.awaited.length),
      ("queued", Nat.repr s.queue.length), ("subscriptions", s.audience.describe)] false

def Link.describe (l : Link) (provider : String) : String :=
  Text.record "Connection"
    [("state", l.status.label), ("transport", provider),
      ("transport_machine", l.dialer.describe), ("protocol", l.session.describe),
      ("state_listeners", Nat.repr l.statusListeners.length),
      ("error_listeners", Nat.repr l.faultListeners.length)] false

end Downlink
