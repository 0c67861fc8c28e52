import Downlink.Link

/-!
The task that runs a link: it takes commands from the user and reports from sockets and the timer,
one at a time, and ends when told to. Every timer has a number of its own, so that a report of one
that was cancelled in the meantime is recognised.
-/
namespace Downlink

structure Task where
  link : Link
  /-- Sockets that were dialled and have not been hung up or reported closed. -/
  sockets : List Nat
  timer : Option Nat
  timers : Nat
  updates : Nat
  running : Bool
  deriving DecidableEq, Repr

namespace Task

inductive Schemas where
  | outputs
  | parameters
  deriving DecidableEq, Repr

inductive Command where
  | want (wanted : Bool)
  | url (url : String)
  | subscribe (topic : Topic)
  | unsubscribe (topic : Topic) (id : Nat)
  | update (path : String) (value : Json)
  | types (schemas : Schemas)
  | shutdown
  deriving DecidableEq, Repr

inductive Report where
  | opened (socket : Nat)
  | text (socket : Nat) (text : String)
  | frame (socket : Nat) (bytes : List UInt8)
  | failed (socket : Nat) (fault : Fault)
  | closed (socket : Nat)
  | elapsed (timer : Nat)
  deriving DecidableEq, Repr

inductive Answer where
  | done
  | member (id : Nat)
  | types (types : PathTypes)
  | fault (fault : Fault)
  /-- The answer comes with the callback of the update of this tag. -/
  | later (tag : Nat)
  deriving DecidableEq, Repr

inductive Effect where
  | dial (socket : Nat) (url : String)
  | hangUp (socket : Nat)
  | send (socket : Nat) (request : Request)
  | startTimer (timer : Nat) (delay : Duration)
  | stopTimer (timer : Nat)
  | status (status : Status)
  | fault (fault : Fault)
  | call (call : Call)
  deriving DecidableEq, Repr

def stopTimer (t : Task) : Task × List Effect :=
  ({ t with timer := none }, t.timer.toList.map .stopTimer)

def startTimer (t : Task) (delay : Duration) : Task × List Effect :=
  let (t, stopped) := t.stopTimer
  let timer := t.timers + 1
  ({ t with timer := some timer, timers := timer }, stopped ++ [.startTimer timer delay])

def hangUp (t : Task) (socket : Nat) : Task × List Effect :=
  ({ t with sockets := t.sockets.filter (· ≠ socket) },
    if t.sockets.contains socket then [.hangUp socket] else [])

def perform (t : Task) : Link.Entry → Task × List Effect
  | .action (.dial socket url) => ({ t with sockets := t.sockets ++ [socket] }, [.dial socket url])
  | .action (.hangUp socket) => t.hangUp socket
  | .action (.schedule delay) => t.startTimer delay
  | .action .cancel => t.stopTimer
  | .sent socket request => (t, if t.sockets.contains socket then [.send socket request] else [])
  | .status _ status => (t, [.status status])
  | .fault _ fault => (t, [.fault fault])
  | .call call => (t, [.call call])

def performAll (t : Task) : List Link.Entry → Task × List Effect
  | [] => (t, [])
  | entry :: entries =>
    let (t, effects) := t.perform entry
    let (t, rest) := t.performAll entries
    (t, effects ++ rest)

def follow (t : Task) (result : Link × List Link.Entry) : Task × List Effect :=
  { t with link := result.1 }.performAll result.2

/-- A task listens to its own link once for the status and once for faults. -/
def new (policy : Retry) : Task where
  link := (Link.start policy).listenStatus.1.listenFaults.1
  sockets := []
  timer := none
  timers := 0
  updates := 0
  running := true

def takeDown (t : Task) : Task × List Effect :=
  let (t, effects) := t.follow (t.link.step (.want false))
  let (t, stopped) := t.stopTimer
  ({ t with sockets := [], running := false }, effects ++ stopped ++ t.sockets.map .hangUp)

/-- An update that fails on the spot is answered on the spot. -/
def updateAnswer (tag : Nat) : List Effect → Answer
  | [] => .later tag
  | .call (.updateFailed failed fault) :: rest =>
    if failed = tag then .fault fault else updateAnswer tag rest
  | _ :: rest => updateAnswer tag rest

def types (t : Task) : Schemas → PathTypes
  | .outputs => t.link.session.outputTypes.getD []
  | .parameters => t.link.session.parameterTypes.getD []

def command (t : Task) (command : Command) : (Task × List Effect) × Answer :=
  if !t.running then ((t, []), .fault .stopped)
  else
    match command with
    | .want wanted => (t.follow (t.link.step (.want wanted)), .done)
    | .url url => (t.follow (t.link.step (.url url)), .done)
    | .subscribe topic =>
      let (result, id) := t.link.subscribe topic
      (t.follow result, .member id)
    | .unsubscribe topic id => (t.follow (t.link.step (.unsubscribe topic id)), .done)
    | .update path value =>
      let tag := t.updates
      let result := { t with updates := tag + 1 }.follow (t.link.step (.update tag path value))
      (result, updateAnswer tag result.2)
    | .types schemas => ((t, []), .types (t.types schemas))
    | .shutdown => (t.takeDown, .done)

/-- A timer counts only while it is the one that is running, and then once. -/
def report (t : Task) (report : Report) : Task × List Effect :=
  if !t.running then (t, [])
  else
    match report with
    | .opened socket => t.follow (t.link.step (.opened socket))
    | .text socket text => t.follow (t.link.step (.text socket text))
    | .frame socket bytes => t.follow (t.link.step (.frame socket bytes))
    | .failed socket fault => t.follow (t.link.step (.fault socket fault))
    | .closed socket =>
      { t with sockets := t.sockets.filter (· ≠ socket) }.follow (t.link.step (.closed socket))
    | .elapsed timer =>
      if t.timer = some timer then { t with timer := none }.follow (t.link.step .elapsed)
      else (t, [])

end Task
end Downlink
