import DealFlow360.Realtime.RealtimeHub
import Mathlib.Logic.Function.Basic

/-!
# Processes behind a Redis channel

Every process has a hub and publishes to it directly; the others take the event
from the Redis channel, through the schema of the envelope. `π` are the
processes, whose source ids are distinct, and the channel hands each message
over once to each process that listens, whenever it likes. What a `send` throws
is chosen anew at each handling.

`ν` are the values of a payload that are arrays or objects, which no check
reads.

The channel delivers at least to those that listen when a message is published,
in any order, and each message once; a process ignores its own messages by the
source id. The schema of the envelope trims and bounds the fields it passes on,
and refuses what is too long. What crosses the wire is a parameter up to the
fields that decide who is sent it.
-/

namespace DealFlow360.Realtime

/-! ## Events on the wire -/

/-- An event with its id and its time. -/
structure StampedEvent (ν : Type) extends RealtimeEvent where
  id : String
  occurredAt : String
  /-- The entries of the payload that are arrays or objects. -/
  nested : List (String × ν) := []
  deriving DecidableEq, Repr

structure RealtimeEventInput (ν : Type) extends RealtimeEvent where
  id : Option String := none
  occurredAt : Option String := none
  nested : List (String × ν) := []
  deriving DecidableEq, Repr

/-- The data that `writeRealtimeEvent` writes to a connection. -/
structure Frame (ν : Type) where
  id : String
  channel : RealtimeChannel
  type : RealtimeEventType
  occurredAt : String
  payload : Payload
  nested : List (String × ν)
  deriving DecidableEq, Repr

/-- What `randomUUID` and `new Date().toISOString()` give. -/
structure Stamp where
  uuid : String
  now : String
  trimmed : trim uuid = uuid

section Events

variable {ν : Type}

def StampedEvent.frame (event : StampedEvent ν) : Frame ν where
  id := event.id
  channel := event.channel
  type := event.type
  occurredAt := event.occurredAt
  payload := event.payload
  nested := event.nested

/-- `input.id?.trim() || randomUUID()`. -/
def Stamp.idFor (stamp : Stamp) (id : Option String) : String :=
  match id with
  | some id => if trim id = "" then stamp.uuid else trim id
  | none => stamp.uuid

def RealtimeEventInput.stamped (input : RealtimeEventInput ν) (stamp : Stamp) : StampedEvent ν where
  toRealtimeEvent := input.toRealtimeEvent
  id := stamp.idFor input.id
  occurredAt := input.occurredAt.getD stamp.now
  nested := input.nested

/-- `min(low).max(high)` of a string. -/
def within (low high : ℕ) (s : String) : Bool := low ≤ (codeUnits s).length && (codeUnits s).length ≤ high

/-- The event as `z.string().trim()` leaves its id and its audience. -/
def StampedEvent.trimmed (event : StampedEvent ν) : StampedEvent ν :=
  { event with
    id := trim event.id
    audience := event.audience.map trim }

/-- The lengths that `realtimeEventSchema` asks for. -/
def StampedEvent.fits (event : StampedEvent ν) : Bool :=
  within 1 128 event.id && within 1 40 event.occurredAt && event.audience.all (within 1 128)

def realtimeEventSchema (event : StampedEvent ν) : Option (StampedEvent ν) :=
  if event.trimmed.fits then some event.trimmed else none

/-- What is published to Redis. The source id is a UUID. -/
structure RealtimeTransportEnvelope (π ν : Type) where
  sourceId : π
  event : StampedEvent ν
  deriving DecidableEq, Repr

def realtimeTransportEnvelopeSchema {π : Type} (envelope : RealtimeTransportEnvelope π ν) :
    Option (RealtimeTransportEnvelope π ν) :=
  (realtimeEventSchema envelope.event).map fun event => { envelope with event }

end Events

/-! ## The delivery loop -/

/-- The event for one subscriber; one whose `send` throws is deleted. -/
def sendTo (event : RealtimeEvent) (throws : String → Bool) (state : RealtimeHub × List RealtimeSubscriber)
    (subscriber : RealtimeSubscriber) : RealtimeHub × List RealtimeSubscriber :=
  if subscriber.accepts event then
    (if throws subscriber.id then state.1.unsubscribe subscriber.id else state.1, state.2 ++ [subscriber])
  else state

/-- `publish` of the hub, with the calls of `send` it makes. -/
def RealtimeHub.deliver (hub : RealtimeHub) (event : RealtimeEvent) (throws : String → Bool) :
    RealtimeHub × List RealtimeSubscriber :=
  hub.subscribers.foldl (sendTo event throws) (hub, [])

/-! ## The processes -/

/-- The processes that listen to the channel (`subscribeRedis`), and the limits of the hubs. -/
structure Deployment (π : Type) where
  listeners : List π
  nodup : listeners.Nodup
  maxConnections : π → ℕ
  maxConnectionsPerUser : π → ℕ

/-- The copy of a publication for one process. -/
structure Copy (π ν : Type) where
  publication : ℕ
  process : π
  event : StampedEvent ν
  deriving DecidableEq, Repr

/-- A message on its way to one process. -/
structure Message (π ν : Type) where
  publication : ℕ
  process : π
  envelope : RealtimeTransportEnvelope π ν

def Message.copy {π ν : Type} (message : Message π ν) : Copy π ν where
  publication := message.publication
  process := message.process
  event := message.envelope.event

/-- A copy that reached its process, and the connections it then had. -/
structure Handled (π ν : Type) extends Copy π ν where
  connections : List RealtimeSubscriber

structure Publication (π ν : Type) where
  number : ℕ
  source : π
  event : StampedEvent ν

/-- A call of `send`. -/
structure Sent (π ν : Type) where
  publication : ℕ
  process : π
  connection : String
  frame : Frame ν
  deriving DecidableEq, Repr

/-- The hubs and the messages under way, with the history of what was published, handled and sent. -/
structure Cluster (π ν : Type) where
  hubs : π → RealtimeHub
  inFlight : List (Message π ν) := []
  published : List (Publication π ν) := []
  handled : List (Handled π ν) := []
  sent : List (Sent π ν) := []

inductive ClusterInput (π ν : Type) where
  | subscribe (process : π) (id : String) (user : AuthenticatedUser) (channels : List RealtimeChannel)
  | unsubscribe (process : π) (id : String)
  | publish (process : π) (input : RealtimeEventInput ν) (stamp : Stamp) (throws : String → Bool)
  /-- The channel hands over the message at this place. -/
  | receive (index : ℕ) (throws : String → Bool)

namespace Cluster

variable {π ν : Type} [DecidableEq π]

/-- The event goes to the hub of the process. -/
def deliver (s : Cluster π ν) (publication : ℕ) (process : π) (event : StampedEvent ν) (throws : String → Bool) :
    Cluster π ν :=
  let delivery := (s.hubs process).deliver event.toRealtimeEvent throws
  { s with
    hubs := Function.update s.hubs process delivery.1
    sent := s.sent ++ delivery.2.map fun subscriber =>
      { publication, process, connection := subscriber.id, frame := event.frame } }

/-- Writes down that a copy is handled now. -/
def handling (s : Cluster π ν) (copy : Copy π ν) : Cluster π ν :=
  { s with handled := s.handled ++ [{ copy with connections := (s.hubs copy.process).subscribers }] }

/-- `publish` of the service: to the own hub, then to the channel. -/
def publish (d : Deployment π) (s : Cluster π ν) (process : π) (input : RealtimeEventInput ν) (stamp : Stamp)
    (throws : String → Bool) : Cluster π ν :=
  let event := input.stamped stamp
  let publication := s.published.length
  let s := (s.handling { publication, process, event }).deliver publication process event throws
  { s with
    inFlight := s.inFlight ++ d.listeners.map fun listener =>
      { publication, process := listener, envelope := { sourceId := process, event } }
    published := s.published ++ [{ number := publication, source := process, event }] }

/-- The handler of the channel's messages, with the check of the own source id. -/
def onMessage (s : Cluster π ν) (message : Message π ν) (throws : String → Bool) : Cluster π ν :=
  match realtimeTransportEnvelopeSchema message.envelope with
  | none => s
  | some envelope =>
      if envelope.sourceId = message.process then s
      else s.deliver message.publication message.process envelope.event throws

/-- The message at this place is taken off the channel. -/
def take (s : Cluster π ν) (index : ℕ) : Cluster π ν := { s with inFlight := s.inFlight.eraseIdx index }

/-- A message that reaches a process; the one that published it has handled it before. -/
def receive (s : Cluster π ν) (index : ℕ) (throws : String → Bool) : Cluster π ν :=
  match s.inFlight[index]? with
  | none => s
  | some message =>
      if message.envelope.sourceId = message.process then (s.take index).onMessage message throws
      else ((s.take index).handling message.copy).onMessage message throws

def step (d : Deployment π) (s : Cluster π ν) : ClusterInput π ν → Cluster π ν
  | .subscribe process id user channels =>
      match (s.hubs process).subscribe id user channels with
      | .ok hub => { s with hubs := Function.update s.hubs process hub }
      | .error _ => s
  | .unsubscribe process id =>
      { s with hubs := Function.update s.hubs process ((s.hubs process).unsubscribe id) }
  | .publish process input stamp throws => s.publish d process input stamp throws
  | .receive index throws => s.receive index throws

/-- No connections, no messages. -/
def start (d : Deployment π) : Cluster π ν where
  hubs process :=
    { maxConnections := d.maxConnections process
      maxConnectionsPerUser := d.maxConnectionsPerUser process }

end Cluster

end DealFlow360.Realtime
