import DealFlow360.Lib.Machine
import DealFlow360.Realtime.ServiceEvents

/-!
# The events of the quotes

Whatever the quote service publishes goes to the dashboard channel, and so to
everybody who may subscribe to it. A user's events are compared in two runs of
requests and connections: the whole one, and the one without the requests about
the quotes of others (`without`); `pairStep` takes both a step further.

A delivery is to a connection on the dashboard channel (`publish_channels`), so
the other connections are sent the same in both runs, which is nothing
(`sentElsewhere_run`). On the dashboard an account with the default permissions
is sent every event (`deliverable_published`). So what it is sent there changes
as soon as a request about somebody else's quote publishes, and the runs only
agree throughout if none does while it listens.
-/

namespace DealFlow360.Realtime

/-! ## Runs -/

/-- `emits` says which events the event bus takes. -/
inductive RealtimeInput where
  | operate (request : WatchedRequest) (emits : ServiceEvent → Bool)
  | connect (id : String) (user : AuthenticatedUser) (requested : List String)
  | disconnect (id : String)

/-- The service, the hub, and what the hub has sent. -/
structure Broadcast where
  service : WatchedWorld
  hub : RealtimeHub := {}
  sent : List (RealtimeSubscriber × RealtimeEvent) := []

/-- What was sent to the user's connections. -/
def Broadcast.sentTo (s : Broadcast) (u : AuthenticatedUser) : List (RealtimeSubscriber × RealtimeEvent) :=
  s.sent.filter fun delivery => delivery.1.user = u

/-- What was sent to the user's connections that are not on the dashboard channel. -/
def Broadcast.sentElsewhere (s : Broadcast) (u : AuthenticatedUser) : List (RealtimeSubscriber × RealtimeEvent) :=
  (s.sentTo u).filter fun delivery => RealtimeChannel.dashboard ∉ delivery.1.channels

/-- The events that may be delivered to the user. -/
def deliverable (u : AuthenticatedUser) (events : List RealtimeEvent) : List RealtimeEvent :=
  events.filter fun event => canDeliverRealtimeEvent event u

section Runs

variable (options : Options)

/-- The realtime events of a request. -/
def published (s : WatchedWorld) (request : WatchedRequest) (emits : ServiceEvent → Bool) : List RealtimeEvent :=
  (publishes options s request).filterMap fun event => publishAdapter (emits event) event

def broadcast (s : Broadcast) : RealtimeInput → Broadcast
  | .operate request emits =>
      { s with
        service := s.service.serve options request
        sent := s.sent ++ (published options s.service request emits).flatMap s.hub.publish }
  | .connect id user requested =>
      match s.hub.connect id user requested with
      | .ok hub => { s with hub }
      | .error _ => s
  | .disconnect id => { s with hub := s.hub.unsubscribe id }

/-! ## Two runs -/

variable (u : AuthenticatedUser)

/-- The request is about a quote whose customer is not the user. -/
def foreign (s : WatchedWorld) (request : WatchedRequest) : Bool :=
  (concerns s request).any fun customerId =>
    !(s.world.store.findCustomersByEmail options.platform u.email).any fun item => item.id = customerId

def removes (s : WatchedWorld) : RealtimeInput → Bool
  | .operate request _ => foreign options u s request
  | .connect _ _ _ | .disconnect _ => false

/-- The run without the requests about the quotes of others. -/
def without (s : Broadcast) : List RealtimeInput → List RealtimeInput
  | [] => []
  | input :: inputs =>
      let rest := without (broadcast options s input) inputs
      if removes options u s.service input then rest else input :: rest

/-- A step of both runs. -/
def pairStep (s : Broadcast × Broadcast) (input : RealtimeInput) : Broadcast × Broadcast :=
  (broadcast options s.1 input,
    if removes options u s.1.service input then s.2 else broadcast options s.2 input)

/-- A removed request publishes nothing while the user has a connection on the dashboard channel. -/
def Unheard (s : Broadcast) : RealtimeInput → Prop
  | .operate request emits =>
      foreign options u s.service request = true → s.hub.watches u = true →
        published options s.service request emits = []
  | .connect _ _ _ | .disconnect _ => True

end Runs

/-! ## What the hub sends to a user -/

section Deliveries

variable {options : Options} {hub : RealtimeHub} {u : AuthenticatedUser}

theorem publishAdapter_channel {emits : Bool} {event : ServiceEvent} {published : RealtimeEvent}
    (h : publishAdapter emits event = some published) : published.channel = .dashboard := by
  unfold publishAdapter at h
  split_ifs at h
  obtain rfl := Option.some.inj h
  rfl

theorem published_channel {s : WatchedWorld} {request : WatchedRequest} {emits : ServiceEvent → Bool} :
    ∀ event ∈ published options s request emits, event.channel = .dashboard := by
  intro event h
  obtain ⟨_, -, h⟩ := List.mem_filterMap.mp h
  exact publishAdapter_channel h

/-- An event of the dashboard goes to connections on the dashboard channel. -/
theorem publish_channels {event : RealtimeEvent} (h : event.channel = .dashboard) :
    ∀ delivery ∈ hub.publish event, RealtimeChannel.dashboard ∈ delivery.1.channels := by
  intro delivery hdelivery
  obtain ⟨subscriber, hsubscriber, rfl⟩ := List.mem_map.mp hdelivery
  have haccepts := (List.mem_filter.mp hsubscriber).2
  unfold RealtimeSubscriber.accepts at haccepts
  rw [h] at haccepts
  split_ifs at haccepts with hchannel hdashboard
  · exact hchannel
  · exact hdashboard.1

/-- The user's connections on the dashboard channel. -/
def watching (hub : RealtimeHub) (u : AuthenticatedUser) : List RealtimeSubscriber :=
  hub.subscribers.filter fun subscriber => subscriber.user = u && subscriber.channels.contains .dashboard

theorem watching_eq_nil_iff : watching hub u = [] ↔ hub.watches u = false := by
  unfold watching RealtimeHub.watches
  rw [List.filter_eq_nil_iff, List.any_eq_false]

theorem publish_to (hub : RealtimeHub) (u : AuthenticatedUser) (event : RealtimeEvent)
    (h : event.channel = .dashboard) :
    ((hub.publish event).filter fun delivery => delivery.1.user = u) =
      if canDeliverRealtimeEvent event u then (watching hub u).map fun subscriber => (subscriber, event) else [] := by
  unfold RealtimeHub.publish watching
  rw [List.filter_map, List.filter_filter]
  have haccepts : ∀ subscriber : RealtimeSubscriber,
      (decide (subscriber.user = u) && subscriber.accepts event) =
        (canDeliverRealtimeEvent event u &&
          (decide (subscriber.user = u) && subscriber.channels.contains .dashboard)) := by
    intro subscriber
    unfold RealtimeSubscriber.accepts
    rw [h]
    by_cases huser : subscriber.user = u
    · by_cases hchannel : RealtimeChannel.dashboard ∈ subscriber.channels
      · simp [huser, hchannel]
      · simp [hchannel]
    · simp [huser]
  simp only [Function.comp_def, haccepts]
  cases canDeliverRealtimeEvent event u with
  | true => simp
  | false => simp

/-- The events on each of the user's connections to the dashboard. -/
def fanOut (hub : RealtimeHub) (u : AuthenticatedUser) (events : List RealtimeEvent) :
    List (RealtimeSubscriber × RealtimeEvent) :=
  events.flatMap fun event => (watching hub u).map fun subscriber => (subscriber, event)

/-- A user is sent the events it may be sent, on each of its connections to the dashboard. -/
theorem deliveries_to {events : List RealtimeEvent} (h : ∀ event ∈ events, event.channel = .dashboard) :
    ((events.flatMap hub.publish).filter fun delivery => delivery.1.user = u) =
      fanOut hub u (deliverable u events) := by
  unfold fanOut deliverable
  induction events with
  | nil => rfl
  | cons event events ih =>
      have hevent := publish_to hub u event (h event List.mem_cons_self)
      rw [List.flatMap_cons, List.filter_append, hevent, ih fun e he => h e (List.mem_cons_of_mem _ he),
        List.filter_cons]
      split_ifs
      · rw [List.flatMap_cons]
      · rw [List.nil_append]

/-- What a user is sent tells which events they were, if it has a connection to the dashboard. -/
theorem fanOut_inj {first second : List RealtimeEvent} :
    fanOut hub u first = fanOut hub u second ↔ (hub.watches u = true → first = second) := by
  unfold fanOut
  cases hwatching : watching hub u with
  | nil =>
      rw [watching_eq_nil_iff.mp hwatching]
      refine iff_of_true ?_ fun h => by cases h
      simp only [List.map_nil, List.flatMap_eq_nil_iff.mpr fun _ _ => rfl]
  | cons subscriber rest =>
      have hwatches : hub.watches u = true := by
        rw [← Bool.not_eq_false, ← watching_eq_nil_iff, hwatching]
        exact List.cons_ne_nil _ _
      refine ⟨fun h _ => ?_, fun h => congrArg _ (h hwatches)⟩
      induction first generalizing second with
      | nil =>
          cases second with
          | nil => rfl
          | cons event second => cases h
      | cons event first ih =>
          cases second with
          | nil => cases h
          | cons event' second =>
              rw [List.flatMap_cons, List.flatMap_cons] at h
              obtain ⟨hhead, htail⟩ := List.append_inj h (by simp)
              have hevent : event = event' := by
                rw [List.map_cons, List.map_cons] at hhead
                exact congrArg Prod.snd (List.cons.inj hhead).1
              rw [hevent, ih htail]

end Deliveries

/-! ## What an account is sent -/

section Accounts

variable {options : Options} {u : AuthenticatedUser}

theorem lookup_spread {key : String} (base : Payload) {extra : Payload} (h : key ∉ extra.map Prod.fst) :
    Table.lookup Prod.fst key (spread base extra) = Table.lookup Prod.fst key base := by
  unfold spread
  induction extra generalizing base with
  | nil => rfl
  | cons entry extra ih =>
      rw [List.map_cons, List.mem_cons, not_or] at h
      rw [List.foldl_cons, ih _ h.2]
      exact Table.lookup_upsert_of_ne (Ne.symm h.1) base

theorem canSubscribe_dashboard (h : u.permissions = defaultUserPermissions) :
    canSubscribeToChannel u .dashboard = true := by
  unfold canSubscribeToChannel hasAnyPermission hasPermission
  rw [h]
  decide +kernel

/-- A customer account may be sent whatever the service publishes, whoever's quote it is about. -/
theorem delivers_quote_event (hpermissions : u.permissions = defaultUserPermissions) {event : ServiceEvent}
    (hplain : event.Plain) {emits : Bool} {published : RealtimeEvent}
    (h : publishAdapter emits event = some published) : canDeliverRealtimeEvent published u = true := by
  unfold publishAdapter at h
  split_ifs at h
  obtain rfl := Option.some.inj h
  unfold canDeliverRealtimeEvent RealtimeEvent.has
  dsimp only
  rw [if_pos rfl, lookup_spread _ hplain, canSubscribe_dashboard hpermissions]
  rfl

theorem deliverable_published (hpermissions : u.permissions = defaultUserPermissions) (s : WatchedWorld)
    (request : WatchedRequest) (emits : ServiceEvent → Bool) :
    deliverable u (published options s request emits) = published options s request emits := by
  refine List.filter_eq_self.mpr fun event h => ?_
  obtain ⟨source, hsource, hadapter⟩ := List.mem_filterMap.mp h
  exact delivers_quote_event hpermissions (publishes_plain options s request source hsource) hadapter

end Accounts

/-! ## Steps -/

section Steps

variable {options : Options} {u : AuthenticatedUser}

theorem sentTo_operate (s : Broadcast) (request : WatchedRequest) (emits : ServiceEvent → Bool) :
    (broadcast options s (.operate request emits)).sentTo u =
      s.sentTo u ++ fanOut s.hub u (deliverable u (published options s.service request emits)) := by
  unfold Broadcast.sentTo broadcast
  dsimp only
  rw [List.filter_append, deliveries_to published_channel]

/-- Connections come and go without a delivery. -/
theorem sent_connections (s : Broadcast) {input : RealtimeInput}
    (h : ∀ request emits, input ≠ .operate request emits) : (broadcast options s input).sent = s.sent := by
  cases input with
  | operate request emits => exact absurd rfl (h request emits)
  | connect id user requested =>
      unfold broadcast
      dsimp only
      cases s.hub.connect id user requested with
      | ok hub => rfl
      | error e => rfl
  | disconnect id => rfl

/-- Off the dashboard channel nothing is sent. -/
theorem sentElsewhere_step (s : Broadcast) (input : RealtimeInput) :
    (broadcast options s input).sentElsewhere u = s.sentElsewhere u := by
  have hsent {s' : Broadcast} (h : s'.sent = s.sent) : s'.sentElsewhere u = s.sentElsewhere u := by
    unfold Broadcast.sentElsewhere Broadcast.sentTo
    rw [h]
  cases input with
  | operate request emits =>
      unfold Broadcast.sentElsewhere Broadcast.sentTo broadcast
      dsimp only
      rw [List.filter_append, List.filter_append]
      refine List.append_right_eq_self.mpr (List.filter_eq_nil_iff.mpr fun delivery h => ?_)
      obtain ⟨event, hevent, hdelivery⟩ := List.mem_flatMap.mp (List.mem_of_mem_filter h)
      simpa using publish_channels (published_channel event hevent) delivery hdelivery
  | connect id user requested => exact hsent (sent_connections s (by simp))
  | disconnect id => exact hsent (sent_connections s (by simp))

/-- Off the dashboard channel nothing is ever sent. -/
theorem sentElsewhere_run (s : Broadcast) (inputs : List RealtimeInput) :
    (Machine.run (broadcast options) s inputs).sentElsewhere u = s.sentElsewhere u := by
  induction inputs generalizing s with
  | nil => rfl
  | cons input inputs ih =>
      rw [Machine.run_cons, ih]
      exact sentElsewhere_step s input

/-- Where the user is sent the same before and after a removed request, the request is not heard. -/
theorem unheard_of_unchanged (hpermissions : u.permissions = defaultUserPermissions)
    {s : Broadcast × Broadcast} {input : RealtimeInput} (hsent : s.1.sentTo u = s.2.sentTo u)
    (hnext : (pairStep options u s input).1.sentTo u = (pairStep options u s input).2.sentTo u) :
    Unheard options u s.1 input := by
  cases input with
  | connect id user requested => trivial
  | disconnect id => trivial
  | operate request emits =>
      intro hforeign hwatches
      unfold pairStep removes at hnext
      dsimp only at hnext
      rw [if_pos hforeign, sentTo_operate, ← hsent, deliverable_published hpermissions] at hnext
      have hnothing : fanOut s.1.hub u (published options s.1.service request emits) = fanOut s.1.hub u [] :=
        List.append_right_eq_self.mp hnext
      exact fanOut_inj.mp hnothing hwatches

/-- The second run of the pair is the run without the requests about the quotes of others. -/
theorem run_pairStep (s t : Broadcast) (inputs : List RealtimeInput) :
    Machine.run (pairStep options u) (s, t) inputs =
      (Machine.run (broadcast options) s inputs,
        Machine.run (broadcast options) t (without options u s inputs)) := by
  induction inputs generalizing s t with
  | nil => rfl
  | cons input inputs ih =>
      have hstep := ih (broadcast options s input)
        (if removes options u s.service input then t else broadcast options t input)
      rw [Machine.run_cons, Machine.run_cons]
      refine hstep.trans (congrArg _ ?_)
      rw [without]
      split_ifs
      · rfl
      · rfl

end Steps

def eve : AuthenticatedUser where
  id := "eve"
  email := "eve@example.com"
  roles := ["user"]
  permissions := defaultUserPermissions

/-- The account connects, once with all channels and once for notifications, and another customer's quote is
deleted. -/
def overheardDeletion : List RealtimeInput :=
  [.connect "connection" eve [], .connect "bell" eve ["notifications"],
   .operate (.operation { operation := .deleteQuote 100 administrator 1 }) fun _ => true]

def oneQuote : Broadcast where
  service :=
    { world := serveAll plainOptions startWorld [{ operation := .createQuote 1 none [] administrator }] }

end DealFlow360.Realtime
