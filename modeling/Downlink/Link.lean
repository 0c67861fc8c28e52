import Downlink.Dialer
import Downlink.Session

/-!
A link is a dialer and a session on top of it, seen as one. Whatever happens to it yields a log of
what it did to socket and timer and whom it called, in order.
-/
namespace Downlink

structure Link where
  dialer : Dialer
  session : Session
  /-- The status last told to the listeners. -/
  status : Status
  nextMember : Nat
  nextListener : Nat
  statusListeners : List Nat
  faultListeners : List Nat
  deriving DecidableEq, Repr

namespace Link

inductive Entry where
  | action (action : Dialer.Action)
  | sent (socket : Nat) (request : Request)
  | status (listener : Nat) (status : Status)
  | fault (listener : Nat) (fault : Fault)
  | call (call : Call)
  deriving DecidableEq, Repr

def start (policy : Retry) : Link where
  dialer := .start policy
  session := .start
  status := .disconnected
  nextMember := 1
  nextListener := 1
  statusListeners := []
  faultListeners := []

def tellFault (l : Link) (fault : Fault) : List Entry := l.faultListeners.map (.fault · fault)

def tellStatus (l : Link) : Link × List Entry :=
  let status := Status.combine l.dialer.status l.session.status
  if status = l.status then (l, [])
  else ({ l with status }, l.statusListeners.map (.status · status))

/-- Requests go to the current socket; without a connected one they are dropped. -/
def sendRequests (l : Link) (requests : List Request) : List Entry :=
  match l.dialer.socket with
  | some socket => if l.dialer.canSend then requests.map (.sent socket) else []
  | none => []

def carryOut (l : Link) (effects : Session.Effects) : Link × List Entry :=
  let (dialer, actions) := if effects.abort then l.dialer.drop else (l.dialer, [])
  let (l', told) := { l with dialer }.tellStatus
  (l', effects.calls.map .call ++ l.sendRequests effects.requests ++
    effects.faults.flatMap l.tellFault ++ actions.map .action ++ told)

def onDialer (l : Link) (event : Dialer.Event) : Link × List Entry :=
  let (dialer, actions) := l.dialer.step event
  let (session, effects) := l.session.onSocket dialer.status
  let (l, entries) := { l with dialer, session }.carryOut effects
  (l, actions.map .action ++ entries)

def accepts (l : Link) (socket : Nat) : Bool := l.dialer.socket == some socket && l.dialer.canSend

def onText (l : Link) (socket : Nat) (text : String) : Link × List Entry :=
  if l.accepts socket then
    let (session, effects) := l.session.onText text
    { l with session }.carryOut effects
  else (l, [])

def onFrame (l : Link) (socket : Nat) (bytes : List UInt8) : Link × List Entry :=
  if l.accepts socket then
    let (session, effects) := l.session.onFrame bytes
    ({ l with session }, effects.calls.map .call)
  else (l, [])

/-- Adds a member with a new id, the last result. The remote process is told of the first one. -/
def subscribe (l : Link) (topic : Topic) : (Link × List Entry) × Nat :=
  let id := l.nextMember
  let (session, first) := l.session.join topic id
  let l := { l with session, nextMember := id + 1 }
  if first then
    let (session, effects) := l.session.demand ⟨true, topic⟩
    ({ l with session }.carryOut effects, id)
  else ((l, []), id)

def unsubscribe (l : Link) (topic : Topic) (id : Nat) : Link × List Entry :=
  let (session, last) := l.session.leave topic id
  let l := { l with session }
  if last = some true then
    let (session, effects) := l.session.demand ⟨false, topic⟩
    { l with session }.carryOut effects
  else (l, [])

def update (l : Link) (tag : Nat) (path : String) (value : Json) : Link × List Entry :=
  let (session, effects) := l.session.update tag path value
  { l with session }.carryOut effects

def listenStatus (l : Link) : Link × Nat :=
  ({ l with
    nextListener := l.nextListener + 1, statusListeners := l.statusListeners ++ [l.nextListener] },
    l.nextListener)

def listenFaults (l : Link) : Link × Nat :=
  ({ l with
    nextListener := l.nextListener + 1, faultListeners := l.faultListeners ++ [l.nextListener] },
    l.nextListener)

def unlisten (l : Link) (listener : Nat) : Link × Bool :=
  ({ l with
    statusListeners := l.statusListeners.filter (· ≠ listener),
    faultListeners := l.faultListeners.filter (· ≠ listener) },
    l.statusListeners.contains listener || l.faultListeners.contains listener)

inductive Event where
  | want (wanted : Bool)
  | url (url : String)
  | opened (socket : Nat)
  | closed (socket : Nat)
  | elapsed
  | text (socket : Nat) (text : String)
  | frame (socket : Nat) (bytes : List UInt8)
  /-- A socket reported an error; its close follows on its own. -/
  | fault (socket : Nat) (fault : Fault)
  | subscribe (topic : Topic)
  | unsubscribe (topic : Topic) (id : Nat)
  | update (tag : Nat) (path : String) (value : Json)
  | listenStatus
  | listenFaults
  | unlisten (listener : Nat)
  deriving DecidableEq, Repr

def step (l : Link) : Event → Link × List Entry
  | .want wanted => l.onDialer (.want wanted)
  | .url url => l.onDialer (.url url)
  | .opened socket => l.onDialer (.opened socket)
  | .closed socket => l.onDialer (.closed socket)
  | .elapsed => l.onDialer .elapsed
  | .text socket text => l.onText socket text
  | .frame socket bytes => l.onFrame socket bytes
  | .fault _ fault => (l, l.tellFault fault)
  | .subscribe topic => (l.subscribe topic).1
  | .unsubscribe topic id => l.unsubscribe topic id
  | .update tag path value => l.update tag path value
  | .listenStatus => (l.listenStatus.1, [])
  | .listenFaults => (l.listenFaults.1, [])
  | .unlisten listener => ((l.unlisten listener).1, [])

end Link
end Downlink
