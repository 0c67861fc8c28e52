import Downlink.Retry
import Downlink.Status

/-!
The life of one socket. The dialer touches neither socket nor timer: it takes what happens and says
what is to be done. Events of any socket but the current one count for nothing.
-/
namespace Downlink

inductive Dialer.State where
  /-- Neither wanted nor possible: there is no url yet. -/
  | idle
  /-- Wanted, but there is no url yet. -/
  | lacksUrl
  | connecting
  | connected
  | backOff
  | disconnecting
  /-- The socket is closing, and a new one opens once it has closed. -/
  | redialing
  | disconnected
  deriving DecidableEq, Repr

structure Dialer where
  state : Dialer.State
  wanted : Bool
  url : Option String
  socket : Option Nat
  nextSocket : Nat
  timerSet : Bool
  /-- The delay counter of the next failed attempt. -/
  counter : Duration
  policy : Retry
  deriving DecidableEq, Repr

namespace Dialer

inductive Action where
  | dial (socket : Nat) (url : String)
  | hangUp (socket : Nat)
  | schedule (delay : Duration)
  | cancel
  deriving DecidableEq, Repr

inductive Event where
  | want (wanted : Bool)
  | url (url : String)
  | opened (socket : Nat)
  | closed (socket : Nat)
  | elapsed
  /-- Close the socket but keep wanting a connection. -/
  | drop
  deriving DecidableEq, Repr

def State.status : State → Status
  | .idle | .disconnected => .disconnected
  | .lacksUrl | .connecting | .backOff | .redialing => .connecting
  | .connected => .connected
  | .disconnecting => .disconnecting

def start (policy : Retry) : Dialer where
  state := .idle
  wanted := false
  url := none
  socket := none
  nextSocket := 1
  timerSet := false
  counter := policy.initial
  policy := policy

def status (d : Dialer) : Status := d.state.status

def canSend (d : Dialer) : Bool := d.state == .connected

def dial (d : Dialer) : Dialer × List Action :=
  match d.url with
  | none => (d, [])
  | some url =>
    ({ d with socket := some d.nextSocket, nextSocket := d.nextSocket + 1, state := .connecting },
      [.dial d.nextSocket url])

def hangUp (d : Dialer) (state : State) : Dialer × List Action :=
  ({ d with state }, d.socket.toList.map .hangUp)

def stopTimer (d : Dialer) : Dialer × List Action :=
  if d.timerSet then ({ d with timerSet := false }, [.cancel]) else (d, [])

def setWanted (d : Dialer) (wanted : Bool) : Dialer × List Action :=
  if wanted = d.wanted then (d, [])
  else
    let d := { d with wanted }
    match wanted, d.state with
    | true, .idle => ({ d with state := .lacksUrl }, [])
    | true, .disconnected => d.dial
    | true, .disconnecting => ({ d with state := .redialing }, [])
    | false, .lacksUrl => ({ d with state := .idle }, [])
    | false, .connecting | false, .connected => d.hangUp .disconnecting
    | false, .backOff =>
      let (d, actions) := d.stopTimer
      ({ d with counter := d.policy.initial, state := .disconnected }, actions)
    | false, .redialing => ({ d with state := .disconnecting }, [])
    | _, _ => (d, [])

/-- A live socket is closed first; the new url is used once it has closed. -/
def setUrl (d : Dialer) (url : String) : Dialer × List Action :=
  if d.url = some url then (d, [])
  else
    let d := { d with url := some url }
    match d.state with
    | .idle => ({ d with state := .disconnected }, [])
    | .lacksUrl => d.dial
    | .connecting | .connected => d.hangUp .redialing
    | .backOff =>
      let (d, cancelled) := d.stopTimer
      let (d, dialled) := d.dial
      (d, cancelled ++ dialled)
    | .disconnecting | .redialing | .disconnected => (d, [])

def onOpened (d : Dialer) (socket : Nat) : Dialer :=
  if d.socket = some socket ∧ d.state = .connecting then
    { d with counter := d.policy.initial, state := .connected }
  else d

/-- A socket that closes without having been asked to is dialled again after a delay. -/
def onClosed (d : Dialer) (socket : Nat) : Dialer × List Action :=
  if d.socket ≠ some socket then (d, [])
  else
    let d := { d with socket := none }
    match d.state with
    | .connecting | .connected =>
      let delay := d.policy.delay d.counter
      let (d, cancelled) := { d with counter := d.policy.next d.counter }.stopTimer
      ({ d with timerSet := true, state := .backOff }, cancelled ++ [.schedule delay])
    | .redialing => d.dial
    | .disconnecting => ({ d with state := .disconnected }, [])
    | .idle | .lacksUrl | .backOff | .disconnected => (d, [])

def onElapsed (d : Dialer) : Dialer × List Action :=
  if d.state = .backOff ∧ d.timerSet then { d with timerSet := false }.dial else (d, [])

def drop (d : Dialer) : Dialer × List Action :=
  if d.state = .connecting ∨ d.state = .connected then d.hangUp d.state else (d, [])

def step (d : Dialer) : Event → Dialer × List Action
  | .want wanted => d.setWanted wanted
  | .url url => d.setUrl url
  | .opened socket => (d.onOpened socket, [])
  | .closed socket => d.onClosed socket
  | .elapsed => d.onElapsed
  | .drop => d.drop

end Dialer
end Downlink
