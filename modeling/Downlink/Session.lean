import Downlink.Audience
import Downlink.Image.Pairing
import Downlink.Schema.Reader
import Downlink.Status
import Downlink.Wire.Incoming
import Downlink.Wire.Request

/-!
What is said over a connected socket. A session fetches both schemas, then subscribes every topic
that anybody listens to, then follows the changes in batches: a batch goes out once all answers to
the schemas and to the batch before it are in. Parameter updates go out at once and hold nothing up.
-/
namespace Downlink

inductive Session.State where
  | offline
  /-- Waiting for the schemas. -/
  | fetching
  /-- Waiting for answers to a batch. -/
  | subscribing
  | subscribed
  deriving DecidableEq, Repr

inductive Session.Awaited where
  | outputSchema
  | parameterSchema
  | demand (demand : Demand)
  | update (tag : Nat)
  deriving DecidableEq, Repr

structure Session where
  state : Session.State
  nextId : Nat
  awaited : List (Nat × Session.Awaited)
  /-- Changes for the next batch, at most one for a topic. -/
  queue : List Demand
  outputTypes : Option PathTypes
  parameterTypes : Option PathTypes
  images : Pairing
  audience : Audience
  deriving DecidableEq, Repr

/-- A callback that is made; members are named by their ids and updates by their tags. -/
inductive Call where
  | value (member : Nat) (topic : Topic) (value : Json)
  | image (member : Nat) (cycler : String) (image : List UInt8)
  | fault (member : Nat) (topic : Topic) (fault : Fault)
  | updated (tag : Nat)
  | updateFailed (tag : Nat) (fault : Fault)
  deriving DecidableEq, Repr

structure Session.Effects where
  requests : List Request := []
  faults : List Fault := []
  entered : List Session.State := []
  abort : Bool := false
  calls : List Call := []
  deriving DecidableEq, Repr

namespace Session

namespace Effects

def none : Effects := {}

def append (a b : Effects) : Effects where
  requests := a.requests ++ b.requests
  faults := a.faults ++ b.faults
  entered := a.entered ++ b.entered
  abort := a.abort || b.abort
  calls := a.calls ++ b.calls

instance : Append Effects := ⟨append⟩

def isQuiet (effects : Effects) : Bool :=
  effects.requests.isEmpty && effects.faults.isEmpty && effects.entered.isEmpty && !effects.abort

end Effects

def State.status : State → Status
  | .offline => .disconnected
  | .fetching => .connecting
  | .subscribing | .subscribed => .connected

def State.isLive (state : State) : Bool := state == .subscribing || state == .subscribed

def Awaited.blocks : Awaited → Bool
  | .update _ => false
  | _ => true

def start : Session where
  state := .offline
  nextId := 0
  awaited := []
  queue := []
  outputTypes := none
  parameterTypes := none
  images := .empty
  audience := .empty

def status (s : Session) : Status := s.state.status

def isBlocked (s : Session) : Bool := s.awaited.any (·.2.blocks)

def andThen (result : Session × Effects) (next : Session → Session × Effects) :
    Session × Effects :=
  let (s, effects) := next result.1
  (s, result.2 ++ effects)

def enter (s : Session) (state : State) : Session × Effects :=
  if s.state = state then (s, .none) else ({ s with state }, { entered := [state] })

def send (s : Session) (query : Query) (awaited : Awaited) : Session × Effects :=
  ({ s with nextId := s.nextId + 1, awaited := s.awaited ++ [(s.nextId, awaited)] },
    { requests := [⟨s.nextId, query⟩] })

def sendDemands (s : Session) : List Demand → Session × Effects
  | [] => (s, .none)
  | demand :: demands =>
    andThen (s.send (.demand demand) (.demand demand)) fun s => s.sendDemands demands

/-- A change that undoes a queued one removes it; one that repeats it is dropped. -/
def plan (s : Session) (demand : Demand) : Session :=
  match s.queue.find? (·.topic = demand.topic) with
  | none => { s with queue := s.queue ++ [demand] }
  | some queued =>
    if queued.subscribe = demand.subscribe then s
    else { s with queue := s.queue.filter (·.topic ≠ demand.topic) }

/-- Sends the next batch if nothing holds it up, or finds that there is none. -/
def advance (s : Session) : Session × Effects :=
  if s.state = .offline then (s, .none)
  else if s.state = .fetching ∧ (s.outputTypes.isNone ∨ s.parameterTypes.isNone) then (s, .none)
  else if s.isBlocked then (s, .none)
  else if s.queue.isEmpty then s.enter .subscribed
  else andThen (s.enter .subscribing) fun s => { s with queue := [] }.sendDemands s.queue

/-- Follows the socket. A lost one takes everything that was said over it along; no callback is made
for what was left open. -/
def onSocket (s : Session) (socket : Status) : Session × Effects :=
  if socket = .connected then
    if s.state = .offline then
      andThen (andThen (s.enter .fetching) fun s => s.send .outputSchema .outputSchema)
        fun s => s.send .parameterSchema .parameterSchema
    else (s, .none)
  else if s.state = .offline then (s, .none)
  else
    { s with
      awaited := [], queue := [], images := .empty, outputTypes := none,
      parameterTypes := none }.enter .offline

/-- Before the schemas are in, nothing is queued: the first batch covers every topic anyway. -/
def demand (s : Session) (change : Demand) : Session × Effects :=
  if s.state.isLive then (s.plan change).advance else (s, .none)

def update (s : Session) (tag : Nat) (path : String) (value : Json) : Session × Effects :=
  if s.state.isLive then s.send (.update path value) (.update tag)
  else (s, { calls := [.updateFailed tag .notConnected] })

def valueCalls (s : Session) (topic : Topic) (value : Json) : List Call :=
  (s.audience.ids topic).map fun id => .value id topic value

def faultCalls (s : Session) (topic : Topic) (fault : Fault) : List Call :=
  (s.audience.ids topic).map fun id => .fault id topic fault

def imageCalls (s : Session) : Option (String × List UInt8) → List Call
  | none => []
  | some (cycler, image) => (s.audience.ids (.image cycler)).map fun id => .image id cycler image

/-- Frames shorter than their header are dropped in silence. -/
def onFrame (s : Session) (bytes : List UInt8) : Session × Effects :=
  match Frame.ofBytes bytes with
  | .error _ => (s, .none)
  | .ok frame =>
    let (images, pair) := s.images.onFrame frame.imageId frame.image
    ({ s with images }, { calls := s.imageCalls pair })

def readingCalls (s : Session) (cycler : String) (reading : Reading) : List Call :=
  match reading.feed.topic? cycler with
  | some topic => s.valueCalls (.output topic) reading.value
  | none => []

def onPush (s : Session) : Push → Session × Effects
  | .parameter path value => (s, { calls := s.valueCalls (.parameter path) value })
  | .outputs cycler readings imageId =>
    let values := readings.flatMap (s.readingCalls cycler)
    match imageId with
    | none => (s, { calls := values })
    | some id =>
      let (images, pair) := s.images.onAnnouncement id cycler
      ({ s with images }, { calls := values ++ s.imageCalls pair })

/-- Once both schemas are in, every topic that anybody listens to is subscribed, in whatever order:
`Demand.sort` only picks one. -/
def finishFetching (s : Session) : Session × Effects :=
  if s.state = .fetching ∧ !s.isBlocked ∧ s.outputTypes.isSome ∧ s.parameterTypes.isSome then
    { s with queue := Demand.sort (s.audience.topics.map fun topic => ⟨true, topic⟩) }.advance
  else (s, .none)

def schemaOf (reply : Reply) (query : Query) (field : String) : Except Fault PathTypes :=
  if reply.ok then Schema.pathTypes field reply.payload
  else .error (.rejected query.name reply.cause)

def schemaEffects : Except Fault PathTypes → Effects
  | .ok _ => .none
  | .error fault => { faults := [fault], abort := true }

def onAnswer (s : Session) (reply : Reply) : Awaited → Session × Effects
  | .outputSchema =>
    let types := schemaOf reply .outputSchema "output_hierarchy"
    andThen ({ s with outputTypes := types.toOption }, schemaEffects types) finishFetching
  | .parameterSchema =>
    let types := schemaOf reply .parameterSchema "parameter_hierarchy"
    andThen ({ s with parameterTypes := types.toOption }, schemaEffects types) finishFetching
  | .demand demand =>
    let calls :=
      if reply.ok then [] else s.faultCalls demand.topic (.rejected demand.name reply.cause)
    andThen (s, { calls }) advance
  | .update tag =>
    let call : Call :=
      if reply.ok then .updated tag
      else .updateFailed tag (.rejected "UpdateParameter" reply.cause)
    andThen (s, { calls := [call] }) advance

def onReply (s : Session) (reply : Reply) : Session × Effects :=
  match Table.get? reply.id s.awaited with
  | none => (s, { faults := [.unmatchedResponse reply.id] })
  | some awaited =>
    { s with awaited := Table.erase reply.id s.awaited }.onAnswer reply awaited

def onText (s : Session) (text : String) : Session × Effects :=
  match Message.read text with
  | .error fault => (s, { faults := [fault] })
  | .ok (.reply reply) => s.onReply reply
  | .ok (.push push) => s.onPush push

def join (s : Session) (topic : Topic) (id : Nat) : Session × Bool :=
  let (audience, first) := s.audience.join topic id
  ({ s with audience }, first)

def leave (s : Session) (topic : Topic) (id : Nat) : Session × Option Bool :=
  let (audience, last) := s.audience.leave topic id
  ({ s with audience }, last)

end Session
end Downlink
