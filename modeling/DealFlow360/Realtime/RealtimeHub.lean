import DealFlow360.Lib.Table
import DealFlow360.Rbac

/-!
# Realtime channels and the hub

Who may subscribe to a channel, who is sent an event, and the hub's
connections. Ids and times of events are left out, and so is the Redis
transport: the connections and the publishers are those of one process with the
feature on, whose `send` does not throw.

`publish` sends an event to the connections that are on one of its channels and
may see it: by role, by owner, by the permission the channel asks for. A
connection subscribes within the limits of the hub. Sends are kept in the
state, in order, so that what a user has been sent can be compared between
runs.
-/

namespace DealFlow360.Realtime

/-! ## Channels -/

inductive RealtimeChannel where
  | jobs | notifications | dashboard | automation | documents
  deriving DecidableEq, Repr

namespace RealtimeChannel

def name : RealtimeChannel → String
  | jobs => "jobs"
  | notifications => "notifications"
  | dashboard => "dashboard"
  | automation => "automation"
  | documents => "documents"

/-- `REALTIME_CHANNEL_NAMES`. -/
def all : List RealtimeChannel := [jobs, notifications, dashboard, automation, documents]

end RealtimeChannel

/-- `isRealtimeChannel`, with the channel it finds. -/
def isRealtimeChannel (value : String) : Option RealtimeChannel :=
  RealtimeChannel.all.find? fun channel => channel.name = value

def permissionForChannel : RealtimeChannel → String
  | .jobs => "jobs.read"
  | .notifications => "notifications.read"
  | .dashboard => "jobs.read"
  | .automation => "automations.read"
  | .documents => "documents.read"

def canSubscribeToChannel (user : AuthenticatedUser) (channel : RealtimeChannel) : Bool :=
  if channel = .dashboard then
    hasAnyPermission user ["jobs.read", "notifications.read", "automations.read", "documents.read"]
  else hasPermission user (permissionForChannel channel)

def authorizedRealtimeChannels (user : AuthenticatedUser) : List RealtimeChannel :=
  RealtimeChannel.all.filter (canSubscribeToChannel user)

inductive RealtimeError where
  | validation (message path detail : String)
  | authorization (message : String) (channels : List RealtimeChannel) (requiredPermissions : List String)
  | rateLimit (message : String) (max : ℕ)
  deriving DecidableEq, Repr

/-- The requested channels, each once. -/
def uniqueChannels (requested : List String) : Except RealtimeError (List RealtimeChannel) :=
  requested.foldlM (fun unique raw =>
    match isRealtimeChannel raw with
    | none =>
        .error (.validation "Unknown realtime channel" "channels"
          s!"\"{raw}\" is not an allowlisted realtime channel")
    | some channel => .ok (if channel ∈ unique then unique else unique ++ [channel])) []

def resolveRequestedChannels (user : AuthenticatedUser) (requested : List String) :
    Except RealtimeError (List RealtimeChannel) := do
  if requested = [] then return authorizedRealtimeChannels user
  let unique ← uniqueChannels requested
  let denied := unique.filter fun channel => !canSubscribeToChannel user channel
  if denied ≠ [] then
    .error (.authorization "You are not allowed to subscribe to one or more realtime channels" denied
      (denied.map permissionForChannel))
  else return unique

/-! ## Events -/

abbrev Payload := List (String × JsonScalar)

inductive RealtimeEventType where
  | jobUpdated | notificationCreated | dashboardUpdated | automationUpdated | documentUpdated
  deriving DecidableEq, Repr

structure RealtimeEvent where
  channel : RealtimeChannel
  type : RealtimeEventType
  payload : Payload := []
  /-- `audience?.userId`. -/
  audience : Option String := none
  deriving DecidableEq, Repr

namespace RealtimeEvent

variable (event : RealtimeEvent)

/-- `event.payload[key] === value`. -/
def has (key value : String) : Bool :=
  (Table.lookup Prod.fst key event.payload).any fun entry => entry.2 = .string value

def sourceChannelForDashboard : RealtimeChannel :=
  if event.has "kind" "job" then .jobs
  else if event.has "kind" "notification" then .notifications
  else if event.has "kind" "automation" then .automation
  else if event.has "kind" "document" then .documents
  else .jobs

end RealtimeEvent

def canReadJobStatus (createdBy : Option String) (user : AuthenticatedUser) : Bool :=
  createdBy.getD "" = "" || createdBy = some user.id || user.roles.contains "admin"

/-- The checks of a channel that is not the dashboard. -/
def canDeliverOn (channel : RealtimeChannel) (event : RealtimeEvent) (user : AuthenticatedUser) : Bool :=
  canSubscribeToChannel user channel &&
    match channel with
    | .automation => true
    | .jobs => canReadJobStatus event.audience user
    | .notifications | .documents => event.audience = some user.id
    | .dashboard => false

def canDeliverRealtimeEvent (event : RealtimeEvent) (user : AuthenticatedUser) : Bool :=
  if event.channel = .dashboard then
    if event.has "kind" "dealflow" || event.has "source" "dealflow" then canSubscribeToChannel user .dashboard
    else canDeliverOn event.sourceChannelForDashboard event user
  else canDeliverOn event.channel event user

/-! ## The hub -/

structure RealtimeSubscriber where
  id : String
  user : AuthenticatedUser
  channels : List RealtimeChannel
  deriving DecidableEq, Repr

/-- `matches` of the hub. -/
def RealtimeSubscriber.accepts (subscriber : RealtimeSubscriber) (event : RealtimeEvent) : Bool :=
  if event.channel ∈ subscriber.channels then canDeliverRealtimeEvent event subscriber.user
  else if .dashboard ∈ subscriber.channels ∧ event.channel ≠ .dashboard then
    canDeliverRealtimeEvent event subscriber.user
  else false

structure RealtimeHub where
  subscribers : List RealtimeSubscriber := []
  maxConnections : ℕ := 200
  maxConnectionsPerUser : ℕ := 5
  deriving DecidableEq, Repr

namespace RealtimeHub

variable (hub : RealtimeHub)

def subscribe (id : String) (user : AuthenticatedUser) (channels : List RealtimeChannel) :
    Except RealtimeError RealtimeHub :=
  if hub.maxConnectionsPerUser ≤ hub.subscribers.countP fun item => item.user.id = user.id then
    .error (.rateLimit "Too many realtime connections for this user" hub.maxConnectionsPerUser)
  else if hub.maxConnections ≤ hub.subscribers.length then
    .error (.rateLimit "Too many realtime connections" hub.maxConnections)
  else .ok { hub with subscribers := Table.upsert RealtimeSubscriber.id { id, user, channels } hub.subscribers }

def unsubscribe (id : String) : RealtimeHub :=
  { hub with subscribers := Table.erase RealtimeSubscriber.id id hub.subscribers }

/-- The event and who it is sent to. -/
def publish (event : RealtimeEvent) : List (RealtimeSubscriber × RealtimeEvent) :=
  (hub.subscribers.filter fun subscriber => subscriber.accepts event).map fun subscriber => (subscriber, event)

/-- `connect` of the service, `id` being the random id of the connection. -/
def connect (id : String) (user : AuthenticatedUser) (requested : List String) :
    Except RealtimeError RealtimeHub := do
  let channels ← resolveRequestedChannels user requested
  hub.subscribe id user channels

/-- The user has a connection on the dashboard channel. -/
def watches (user : AuthenticatedUser) : Bool :=
  hub.subscribers.any fun subscriber => subscriber.user = user && subscriber.channels.contains .dashboard

end RealtimeHub

end DealFlow360.Realtime
