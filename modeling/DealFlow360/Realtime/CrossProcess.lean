import DealFlow360.Lib.Machine
import DealFlow360.Realtime.RealtimeService
import Mathlib.Data.List.DropRight
import Mathlib.Data.List.Perm.Basic

/-!
# Delivery across processes

A publication goes once to its own process and once to each other that listens,
and each of them either has handled it or has its copy still under way. What is
handled is sent to the connections that match it, unless a connection of
another process judges the event otherwise once it has crossed the channel:
there the schema of the envelope drops what is too long, and trims the
audience.

The invariant has two halves. One is about messages: every publication is under
way or handled, once for each process that listens (`underway_publish`,
`sound_take_handling`), with no condition at all (`exact_iff_sent`). The other
is about what the hubs send, and there the schema of the envelope comes in
(`sent_onMessage`).

- `sent_step_iff`: a step keeps the sends exact if and only if the message it
  hands over is judged as it was published;
- `exact_iff`: the same of runs, of any number of processes.

`crossing_not_exact` has an id that is too long and an audience with blanks
around it.
-/

namespace DealFlow360.Realtime

/-! ## Trimming -/

/-- Trimmed text has no blanks left to trim. -/
theorem trim_trim (s : String) : trim (trim s) = trim s := by
  have htrim : ∀ text : String,
      (trim text).toList = (text.toList.dropWhile trim.isSpace).rdropWhile trim.isSpace := fun _ =>
    String.toList_ofList
  have hfront : ((s.toList.dropWhile trim.isSpace).rdropWhile trim.isSpace).dropWhile trim.isSpace
      = (s.toList.dropWhile trim.isSpace).rdropWhile trim.isSpace := by
    rw [List.dropWhile_eq_self_iff]
    intro hlength
    have hfront_of := List.rdropWhile_prefix trim.isSpace (s.toList.dropWhile trim.isSpace)
    have hlonger := hlength.trans_le hfront_of.length_le
    rw [hfront_of.getElem hlength]
    exact List.dropWhile_get_zero_not _ _ hlonger
  rw [← String.toList_inj, htrim, htrim s, hfront]
  exact List.rdropWhile_idempotent _ _

theorem trim_idFor (stamp : Stamp) (id : Option String) : trim (stamp.idFor id) = stamp.idFor id := by
  unfold Stamp.idFor
  cases id with
  | none => exact stamp.trimmed
  | some id =>
      dsimp only
      split
      · exact stamp.trimmed
      · exact trim_trim id

theorem idFor_some (stamp : Stamp) {id : String} (h : trim id ≠ "") : stamp.idFor (some id) = trim id := if_neg h

theorem stamped_id {ν : Type} (input : RealtimeEventInput ν) (stamp : Stamp) :
    (input.stamped stamp).id = stamp.idFor input.id := rfl

/-- An event with a trimmed id shows the same after the channel as before. -/
theorem frame_trimmed {ν : Type} {event : StampedEvent ν} (h : trim event.id = event.id) :
    event.trimmed.frame = event.frame := by
  show ({ event.frame with id := trim event.id } : Frame ν) = event.frame
  rw [h]
  rfl

/-! ## The delivery loop -/

/-- A hub that lost connections. -/
structure Shrunk (hub hub' : RealtimeHub) : Prop where
  subscribers : hub'.subscribers.Sublist hub.subscribers
  maxConnections : hub'.maxConnections = hub.maxConnections
  maxConnectionsPerUser : hub'.maxConnectionsPerUser = hub.maxConnectionsPerUser

theorem Shrunk.refl (hub : RealtimeHub) : Shrunk hub hub :=
  ⟨List.Sublist.refl _, rfl, rfl⟩

theorem Shrunk.trans {hub hub' hub'' : RealtimeHub} (h : Shrunk hub hub') (h' : Shrunk hub' hub'') :
    Shrunk hub hub'' :=
  ⟨h'.subscribers.trans h.subscribers, h'.maxConnections.trans h.maxConnections,
    h'.maxConnectionsPerUser.trans h.maxConnectionsPerUser⟩

theorem shrunk_unsubscribe (hub : RealtimeHub) (id : String) : Shrunk hub (hub.unsubscribe id) :=
  ⟨List.filter_sublist, rfl, rfl⟩

theorem shrunk_sendTo (event : RealtimeEvent) (throws : String → Bool)
    (state : RealtimeHub × List RealtimeSubscriber) (subscriber : RealtimeSubscriber) :
    Shrunk state.1 (sendTo event throws state subscriber).1 := by
  unfold sendTo
  split
  · dsimp only
    split
    · exact shrunk_unsubscribe state.1 subscriber.id
    · exact Shrunk.refl state.1
  · exact Shrunk.refl state.1

theorem sendTo_sent (event : RealtimeEvent) (throws : String → Bool)
    (state : RealtimeHub × List RealtimeSubscriber) (subscriber : RealtimeSubscriber) :
    (sendTo event throws state subscriber).2
      = state.2 ++ [subscriber].filter fun subscriber => subscriber.accepts event := by
  unfold sendTo
  rw [List.filter_cons, List.filter_nil]
  by_cases haccepts : subscriber.accepts event = true
  · rw [if_pos haccepts, if_pos haccepts]
  · rw [if_neg haccepts, if_neg haccepts, List.append_nil]

theorem sendTo_loop (event : RealtimeEvent) (throws : String → Bool) (subscribers : List RealtimeSubscriber)
    (state : RealtimeHub × List RealtimeSubscriber) :
    Shrunk state.1 (subscribers.foldl (sendTo event throws) state).1 ∧
      (subscribers.foldl (sendTo event throws) state).2
        = state.2 ++ subscribers.filter fun subscriber => subscriber.accepts event := by
  induction subscribers generalizing state with
  | nil => exact ⟨Shrunk.refl state.1, (List.append_nil state.2).symm⟩
  | cons subscriber subscribers ih =>
      obtain ⟨hshrunk, hsent⟩ := ih (sendTo event throws state subscriber)
      refine ⟨(shrunk_sendTo event throws state subscriber).trans hshrunk, ?_⟩
      rw [List.foldl_cons, hsent, sendTo_sent, List.append_assoc, ← List.filter_append, List.singleton_append]

theorem shrunk_deliver (hub : RealtimeHub) (event : RealtimeEvent) (throws : String → Bool) :
    Shrunk hub (hub.deliver event throws).1 :=
  (sendTo_loop event throws hub.subscribers (hub, [])).1

/-- A connection that throws stops none of the others. -/
theorem deliver_sent (hub : RealtimeHub) (event : RealtimeEvent) (throws : String → Bool) :
    (hub.deliver event throws).2 = hub.subscribers.filter fun subscriber => subscriber.accepts event :=
  (sendTo_loop event throws hub.subscribers (hub, [])).2

/-! ## The limits of a hub -/

/-- The connections of a hub: distinct ids, no more than the limits allow. -/
structure WithinLimits (maxConnections maxConnectionsPerUser : ℕ) (hub : RealtimeHub) : Prop where
  distinct : Table.Distinct RealtimeSubscriber.id hub.subscribers
  connections : hub.subscribers.length ≤ maxConnections
  perUser : ∀ user, (hub.subscribers.countP fun item => item.user.id = user) ≤ maxConnectionsPerUser
  maxConnections : hub.maxConnections = maxConnections
  maxConnectionsPerUser : hub.maxConnectionsPerUser = maxConnectionsPerUser

section Limits

variable {most mostPerUser : ℕ} {hub hub' : RealtimeHub}

theorem withinLimits_of_shrunk (h : WithinLimits most mostPerUser hub) (hshrunk : Shrunk hub hub') :
    WithinLimits most mostPerUser hub' where
  distinct := h.distinct.sublist (hshrunk.subscribers.map _)
  connections := hshrunk.subscribers.length_le.trans h.connections
  perUser user := (hshrunk.subscribers.countP_le).trans (h.perUser user)
  maxConnections := hshrunk.maxConnections.trans h.maxConnections
  maxConnectionsPerUser := hshrunk.maxConnectionsPerUser.trans h.maxConnectionsPerUser

theorem withinLimits_subscribe {id : String} {user : AuthenticatedUser} {channels : List RealtimeChannel}
    (h : WithinLimits most mostPerUser hub) (hsubscribe : hub.subscribe id user channels = .ok hub') :
    WithinLimits most mostPerUser hub' := by
  unfold RealtimeHub.subscribe at hsubscribe
  split_ifs at hsubscribe with huser htotal
  cases hsubscribe
  rw [h.maxConnectionsPerUser] at huser
  rw [h.maxConnections] at htotal
  refine ⟨Table.distinct_upsert h.distinct _, ?_, ?_, h.maxConnections, h.maxConnectionsPerUser⟩
  · have hcount : (Table.upsert RealtimeSubscriber.id ⟨id, user, channels⟩ hub.subscribers).countP
      (fun _ => true) ≤ _ :=
      Table.countP_upsert_le _ _ _
    rw [List.countP_true, if_pos rfl] at hcount
    dsimp only
    omega
  · intro other
    have hcount : (Table.upsert RealtimeSubscriber.id ⟨id, user, channels⟩ hub.subscribers).countP
        (fun item => item.user.id = other) ≤ _ := Table.countP_upsert_le _ _ _
    refine hcount.trans ?_
    split
    · rename_i hsame
      obtain rfl := of_decide_eq_true hsame
      dsimp only at huser ⊢
      omega
    · exact h.perUser other

end Limits

/-! ## What is under way and what was handled -/

section Cluster

variable {π ν : Type}

/-- One call of `send` to each of some connections of a process. -/
def sends (publication : ℕ) (process : π) (event : StampedEvent ν) (subscribers : List RealtimeSubscriber) :
    List (Sent π ν) :=
  subscribers.map fun subscriber => { publication, process, connection := subscriber.id, frame := event.frame }

/-- What the handling of a copy owes: a call of `send` to each of the connections that match it. -/
def Handled.sends (handled : Handled π ν) : List (Sent π ν) :=
  Realtime.sends handled.publication handled.process handled.event
    (handled.connections.filter fun subscriber => subscriber.accepts handled.event.toRealtimeEvent)

/-- The sends tell which connections they went to. -/
theorem sends_inj {publication : ℕ} {process : π} {event : StampedEvent ν} {subscribers : List RealtimeSubscriber}
    (h : Table.Distinct RealtimeSubscriber.id subscribers) {p q : RealtimeSubscriber → Bool} :
    sends publication process event (subscribers.filter p) = sends publication process event (subscribers.filter q) ↔
      ∀ subscriber ∈ subscribers, p subscriber = q subscriber := by
  have hmem : ∀ (r : RealtimeSubscriber → Bool) {subscriber}, subscriber ∈ subscribers →
      (({ publication, process, connection := subscriber.id, frame := event.frame } : Sent π ν)
        ∈ sends publication process event (subscribers.filter r) ↔ r subscriber = true) := by
    intro r subscriber hsubscriber
    unfold sends
    rw [List.mem_map]
    constructor
    · rintro ⟨other, hother, hsame⟩
      obtain ⟨hin, hr⟩ := List.mem_filter.mp hother
      have hid : other.id = subscriber.id := congrArg Sent.connection hsame
      rwa [← List.inj_on_of_nodup_map h hin hsubscriber hid]
    · intro hr
      exact ⟨subscriber, List.mem_filter.mpr ⟨hsubscriber, hr⟩, rfl⟩
  constructor
  · intro hsame subscriber hsubscriber
    rw [Bool.eq_iff_iff, ← hmem p hsubscriber, ← hmem q hsubscriber, hsame]
  · intro hsame
    rw [List.filter_congr hsame]

variable [DecidableEq π]

/-- The copies of a publication: one for its own process, and one for each other that listens. -/
def Deployment.copies (d : Deployment π) (publication : Publication π ν) : List (Copy π ν) :=
  (publication.source :: d.listeners.filter fun listener => listener ≠ publication.source).map fun process =>
    { publication := publication.number, process, event := publication.event }

namespace Cluster

/-- The messages that another process is still to handle. -/
def underway (s : Cluster π ν) : List (Message π ν) :=
  s.inFlight.filter fun message => message.envelope.sourceId ≠ message.process

/-- The copies that were handled, and those under way. -/
def accounted (s : Cluster π ν) : List (Copy π ν) :=
  s.handled.map Handled.toCopy ++ s.underway.map Message.copy

/-- What holds in every state: the copies are accounted for, and the hubs stay within their limits. -/
structure Sound (d : Deployment π) (s : Cluster π ν) : Prop where
  hubs : ∀ process, WithinLimits (d.maxConnections process) (d.maxConnectionsPerUser process) (s.hubs process)
  numbered : s.published.map Publication.number = List.range s.published.length
  conserved : s.accounted.Perm (s.published.flatMap d.copies)
  distinct : ∀ handled ∈ s.handled, Table.Distinct RealtimeSubscriber.id handled.connections
  trimmed : ∀ message ∈ s.inFlight, trim message.envelope.event.id = message.envelope.event.id

section Steps

variable {d : Deployment π} {s : Cluster π ν}

theorem sound_start (d : Deployment π) : (start d : Cluster π ν).Sound d where
  hubs process := ⟨List.nodup_nil, Nat.zero_le _, fun _ => Nat.zero_le _, rfl, rfl⟩
  numbered := rfl
  conserved := List.Perm.nil
  distinct _ hhandled := by cases hhandled
  trimmed _ hmessage := by cases hmessage

/-- Hubs within their limits are all that changes. -/
theorem sound_of_hubs (h : s.Sound d) {hubs : π → RealtimeHub} {sent : List (Sent π ν)}
    (hhubs : ∀ process, WithinLimits (d.maxConnections process) (d.maxConnectionsPerUser process) (hubs process)) :
    ({ s with hubs, sent } : Cluster π ν).Sound d :=
  ⟨hhubs, h.numbered, h.conserved, h.distinct, h.trimmed⟩

theorem withinLimits_update (h : s.Sound d) {process : π} {hub : RealtimeHub}
    (hhub : WithinLimits (d.maxConnections process) (d.maxConnectionsPerUser process) hub) (other : π) :
    WithinLimits (d.maxConnections other) (d.maxConnectionsPerUser other)
      (Function.update s.hubs process hub other) := by
  by_cases hsame : other = process
  · subst hsame
    rw [Function.update_self]
    exact hhub
  · rw [Function.update_of_ne hsame]
    exact h.hubs other

theorem sound_deliver (h : s.Sound d) (publication : ℕ) (process : π) (event : StampedEvent ν)
    (throws : String → Bool) : (s.deliver publication process event throws).Sound d :=
  sound_of_hubs h (withinLimits_update h
    (withinLimits_of_shrunk (h.hubs process) (shrunk_deliver (s.hubs process) event.toRealtimeEvent throws)))

theorem sound_onMessage (h : s.Sound d) (message : Message π ν) (throws : String → Bool) :
    (s.onMessage message throws).Sound d := by
  unfold onMessage
  split
  · exact h
  · split
    · exact h
    · exact sound_deliver h _ _ _ _

/-- A message that is taken is under way no longer, unless it was the process's own. -/
theorem underway_take {index : ℕ} {message : Message π ν} (hmessage : s.inFlight[index]? = some message) :
    s.underway.Perm
      ((if message.envelope.sourceId = message.process then [] else [message]) ++ (s.take index).underway) := by
  obtain ⟨hindex, rfl⟩ := List.getElem?_eq_some_iff.mp hmessage
  have hperm := (List.getElem_cons_eraseIdx_perm hindex).symm.filter
    fun message => decide (message.envelope.sourceId ≠ message.process)
  rw [List.filter_cons] at hperm
  refine hperm.trans (List.Perm.of_eq ?_)
  by_cases hown : s.inFlight[index].envelope.sourceId = s.inFlight[index].process
  · rw [if_pos hown, if_neg (by simpa using hown)]
    rfl
  · rw [if_neg hown, if_pos (by simpa using hown)]
    rfl

theorem trimmed_take (h : s.Sound d) (index : ℕ) :
    ∀ message ∈ (s.take index).inFlight, trim message.envelope.event.id = message.envelope.event.id :=
  fun message hmessage => h.trimmed message (List.mem_of_mem_eraseIdx hmessage)

/-- A process's own message is not waited for. -/
theorem sound_take_own (h : s.Sound d) {index : ℕ} {message : Message π ν}
    (hmessage : s.inFlight[index]? = some message)
    (hown : message.envelope.sourceId = message.process) : (s.take index).Sound d := by
  have hunderway := underway_take hmessage
  rw [if_pos hown, List.nil_append] at hunderway
  refine ⟨h.hubs, h.numbered, ?_, h.distinct, trimmed_take h index⟩
  exact ((hunderway.symm.map Message.copy).append_left _).trans h.conserved

/-- A message of another process is handled when it is taken. -/
theorem sound_take_handling (h : s.Sound d) {index : ℕ} {message : Message π ν}
    (hmessage : s.inFlight[index]? = some message) (hown : message.envelope.sourceId ≠ message.process) :
    ((s.take index).handling message.copy).Sound d := by
  have hunderway := underway_take hmessage
  rw [if_neg hown, List.singleton_append] at hunderway
  refine ⟨h.hubs, h.numbered, ?_, ?_, trimmed_take h index⟩
  · have hmoved := (hunderway.symm.map Message.copy).append_left (s.handled.map Handled.toCopy)
    refine List.Perm.trans (List.Perm.of_eq ?_) (hmoved.trans h.conserved)
    show (s.handled ++ [_]).map Handled.toCopy ++ (s.take index).underway.map Message.copy = _
    rw [List.map_append, List.append_assoc, List.map_cons]
    rfl
  · intro handled hhandled
    rcases List.mem_append.mp hhandled with hold | hnew
    · exact h.distinct handled hold
    · obtain rfl := List.mem_singleton.mp hnew
      exact (h.hubs message.process).distinct

/-- The messages of a publication that other processes are to handle. -/
theorem underway_publish (s : Cluster π ν) (process : π) (input : RealtimeEventInput ν) (stamp : Stamp)
    (throws : String → Bool) :
    (s.publish d process input stamp throws).underway.map Message.copy
      = s.underway.map Message.copy ++ (d.listeners.filter fun listener => listener ≠ process).map fun listener =>
          { publication := s.published.length, process := listener, event := input.stamped stamp } := by
  show (List.filter _ (s.inFlight ++ d.listeners.map _)).map Message.copy = _
  rw [List.filter_append, List.map_append, List.filter_map, List.map_map]
  congr 2
  refine List.filter_congr fun listener _ => ?_
  simp only [Function.comp_apply, ne_eq, eq_comm]

theorem sound_publish (h : s.Sound d) (process : π) (input : RealtimeEventInput ν) (stamp : Stamp)
    (throws : String → Bool) : (s.publish d process input stamp throws).Sound d := by
  have hdelivered := withinLimits_update h (withinLimits_of_shrunk (h.hubs process)
    (shrunk_deliver (s.hubs process) (input.stamped stamp).toRealtimeEvent throws))
  refine ⟨hdelivered, ?_, ?_, ?_, ?_⟩
  · show (s.published ++ [_]).map Publication.number = List.range (s.published ++ [_]).length
    rw [List.map_append, h.numbered, List.length_append, List.length_singleton, List.range_succ]
    rfl
  · show ((s.handled ++ [_]).map Handled.toCopy ++ _).Perm ((s.published ++ [_]).flatMap d.copies)
    rw [underway_publish, List.map_append, List.flatMap_append, List.flatMap_singleton]
    have hconserved := h.conserved.append_right
      (d.copies { number := s.published.length, source := process, event := input.stamped stamp })
    refine List.Perm.trans ?_ hconserved
    unfold accounted Deployment.copies
    rw [List.append_assoc, List.append_assoc]
    refine List.Perm.append_left _ ?_
    rw [← List.append_assoc, List.map_cons]
    exact List.perm_append_comm.append_right _ |>.trans (List.Perm.of_eq (List.append_assoc _ _ _))
  · intro handled hhandled
    rcases List.mem_append.mp hhandled with hold | hnew
    · exact h.distinct handled hold
    · obtain rfl := List.mem_singleton.mp hnew
      exact (h.hubs process).distinct
  · intro message hmessage
    rcases List.mem_append.mp hmessage with hold | hnew
    · exact h.trimmed message hold
    · obtain ⟨listener, -, rfl⟩ := List.mem_map.mp hnew
      exact trim_idFor stamp input.id

theorem sound_receive (h : s.Sound d) (index : ℕ) (throws : String → Bool) : (s.receive index throws).Sound d := by
  unfold receive
  cases hmessage : s.inFlight[index]? with
  | none => exact h
  | some message =>
      dsimp only
      by_cases hown : message.envelope.sourceId = message.process
      · rw [if_pos hown]
        exact sound_onMessage (sound_take_own h hmessage hown) message throws
      · rw [if_neg hown]
        exact sound_onMessage (sound_take_handling h hmessage hown) message throws

theorem sound_step (h : s.Sound d) (input : ClusterInput π ν) : (s.step d input).Sound d := by
  cases input with
  | subscribe process id user channels =>
      unfold step
      dsimp only
      split
      · rename_i hub hsubscribe
        exact sound_of_hubs h (withinLimits_update h (withinLimits_subscribe (h.hubs process) hsubscribe))
      · exact h
  | unsubscribe process id =>
      exact sound_of_hubs h (withinLimits_update h
        (withinLimits_of_shrunk (h.hubs process) (shrunk_unsubscribe (s.hubs process) id)))
  | publish process input stamp throws => exact sound_publish h process input stamp throws
  | receive index throws => exact sound_receive h index throws

/-! ## Exact delivery -/

/-- Each publication is handled once by its own process and once by each other that listens, or still on its way
there; a copy that is handled is sent once to each of the connections that match it and to no other; and the limits
hold. -/
structure Exact (d : Deployment π) (s : Cluster π ν) : Prop where
  once : (s.accounted.map fun copy => (copy.publication, copy.process)).Nodup
  accounted : ∀ copy, copy ∈ s.accounted ↔ ∃ publication ∈ s.published, copy ∈ d.copies publication
  sent : s.sent = s.handled.flatMap Handled.sends
  distinct : ∀ handled ∈ s.handled, Table.Distinct RealtimeSubscriber.id handled.connections
  connections : ∀ process, (s.hubs process).subscribers.length ≤ d.maxConnections process
  perUser : ∀ process user, ((s.hubs process).subscribers.countP fun item => item.user.id = user)
    ≤ d.maxConnectionsPerUser process

theorem copies_nodup (h : s.published.map Publication.number = List.range s.published.length) :
    ((s.published.flatMap d.copies).map fun copy => (copy.publication, copy.process)).Nodup := by
  have hnumbers : (s.published.map Publication.number).Nodup := by
    rw [h]
    exact List.nodup_range
  rw [List.map_flatMap, List.nodup_flatMap]
  constructor
  · intro publication _
    unfold Deployment.copies
    rw [List.map_map]
    refine List.Nodup.map (fun first second hsame => (Prod.mk.inj hsame).2) (List.nodup_cons.mpr ⟨?_, ?_⟩)
    · simp
    · exact d.nodup.filter _
  · refine (List.pairwise_map.mp hnumbers).imp fun {first second} hne => ?_
    rintro key hfirst hsecond
    obtain ⟨copy, hcopy, rfl⟩ := List.mem_map.mp hfirst
    obtain ⟨copy', hcopy', hkey⟩ := List.mem_map.mp hsecond
    obtain ⟨_, -, rfl⟩ := List.mem_map.mp hcopy
    obtain ⟨_, -, rfl⟩ := List.mem_map.mp hcopy'
    exact hne (Prod.mk.inj hkey).1.symm

/-- All but the sends is exact in every state. -/
theorem exact_iff_sent (h : s.Sound d) : s.Exact d ↔ s.sent = s.handled.flatMap Handled.sends := by
  constructor
  · exact Exact.sent
  · intro hsent
    refine ⟨?_, ?_, hsent, h.distinct, fun process => (h.hubs process).connections,
      fun process => (h.hubs process).perUser⟩
    · exact (h.conserved.map _).symm.nodup (copies_nodup h.numbered)
    · intro copy
      rw [h.conserved.mem_iff, List.mem_flatMap]

theorem sent_deliver (publication : ℕ) (process : π) (event : StampedEvent ν) (throws : String → Bool) :
    (s.deliver publication process event throws).sent
      = s.sent ++ sends publication process event
          ((s.hubs process).subscribers.filter fun subscriber => subscriber.accepts event.toRealtimeEvent) := by
  unfold deliver sends
  dsimp only
  rw [deliver_sent]

theorem sent_onMessage_own {message : Message π ν} (hown : message.envelope.sourceId = message.process)
    (throws : String → Bool) : (s.onMessage message throws).sent = s.sent := by
  unfold onMessage realtimeTransportEnvelopeSchema
  cases realtimeEventSchema message.envelope.event with
  | none => rfl
  | some event =>
      dsimp only [Option.map_some]
      rw [if_pos hown]

/-- A message of another process is sent on as the schema leaves it. -/
theorem sent_onMessage {message : Message π ν} (hown : message.envelope.sourceId ≠ message.process)
    (htrimmed : trim message.envelope.event.id = message.envelope.event.id) (throws : String → Bool) :
    (s.onMessage message throws).sent
      = s.sent ++ sends message.publication message.process message.envelope.event
          ((s.hubs message.process).subscribers.filter fun subscriber =>
            message.envelope.event.trimmed.fits
              && subscriber.accepts message.envelope.event.trimmed.toRealtimeEvent) := by
  unfold onMessage realtimeTransportEnvelopeSchema realtimeEventSchema
  cases message.envelope.event.trimmed.fits with
  | false =>
      simp only [Bool.false_eq_true, if_false, Option.map_none, Bool.false_and, List.filter_false]
      exact (List.append_nil s.sent).symm
  | true =>
      simp only [if_true, Option.map_some, Bool.true_and]
      rw [if_neg hown, sent_deliver]
      unfold sends
      rw [frame_trimmed htrimmed]

theorem handled_onMessage (message : Message π ν) (throws : String → Bool) :
    (s.onMessage message throws).handled = s.handled := by
  unfold onMessage
  split
  · rfl
  · split <;> rfl

/-- A message of another process is judged there as it was published: a connection accepts the event exactly if the
event fits the schema and the connection accepts it with its audience trimmed. -/
def Crosses (s : Cluster π ν) : ClusterInput π ν → Prop
  | .receive index _ => ∀ message, s.inFlight[index]? = some message →
      message.envelope.sourceId ≠ message.process →
        ∀ subscriber ∈ (s.hubs message.process).subscribers,
          subscriber.accepts message.envelope.event.toRealtimeEvent
            = (message.envelope.event.trimmed.fits
              && subscriber.accepts message.envelope.event.trimmed.toRealtimeEvent)
  | .subscribe _ _ _ _ | .unsubscribe _ _ | .publish _ _ _ _ => True

theorem sent_receive_iff (h : s.Sound d) (hsent : s.sent = s.handled.flatMap Handled.sends) (index : ℕ)
    (throws : String → Bool) :
    (s.receive index throws).sent = (s.receive index throws).handled.flatMap Handled.sends ↔
      s.Crosses (.receive index throws) := by
  unfold receive Crosses
  cases hmessage : s.inFlight[index]? with
  | none => exact iff_of_true hsent fun _ hsome => by cases hmessage.symm.trans hsome
  | some message =>
      have hmem := List.mem_of_getElem? hmessage
      dsimp only
      by_cases hown : message.envelope.sourceId = message.process
      · rw [if_pos hown, sent_onMessage_own hown, handled_onMessage]
        refine iff_of_true hsent fun other hother hnot => ?_
        obtain rfl := Option.some.inj (hmessage.symm.trans hother)
        exact absurd hown hnot
      · rw [if_neg hown, sent_onMessage hown (h.trimmed message hmem), handled_onMessage]
        show s.sent ++ _ = (s.handled ++ [_]).flatMap Handled.sends ↔ _
        rw [List.flatMap_append, List.flatMap_singleton, ← hsent, List.append_right_inj]
        refine eq_comm.trans ((sends_inj (h.hubs message.process).distinct).trans ?_)
        constructor
        · intro hall other hother _
          obtain rfl := Option.some.inj (hmessage.symm.trans hother)
          exact hall
        · intro hall
          exact hall message hmessage hown

/-- A step keeps the sends exact if and only if the message it hands over is judged as it was published. -/
theorem sent_step_iff (h : s.Sound d) (hsent : s.sent = s.handled.flatMap Handled.sends) (input : ClusterInput π ν) :
    (s.step d input).sent = (s.step d input).handled.flatMap Handled.sends ↔ s.Crosses input := by
  cases input with
  | subscribe process id user channels =>
      refine iff_of_true ?_ trivial
      unfold step
      dsimp only
      split
      · exact hsent
      · exact hsent
  | unsubscribe process id => exact iff_of_true hsent trivial
  | publish process input stamp throws =>
      refine iff_of_true ?_ trivial
      show ((s.handling _).deliver _ process _ throws).sent = (s.handled ++ [_]).flatMap Handled.sends
      rw [sent_deliver, List.flatMap_append, List.flatMap_singleton, ← hsent]
      rfl
  | receive index throws => exact sent_receive_iff h hsent index throws

end Steps

theorem sound_run (d : Deployment π) (inputs : List (ClusterInput π ν)) :
    (Machine.run (step d) (start d) inputs).Sound d :=
  Machine.invariant (I := fun s : Cluster π ν => s.Sound d) (fun _ input h => sound_step h input) (sound_start d) inputs

/-- A message that a connection judges otherwise ends the exactness of a run. -/
theorem not_exact_of_not_crosses {d : Deployment π} {inputs : List (ClusterInput π ν)} {index : ℕ}
    {throws : String → Bool}
    (hsent : (Machine.run (step d) (start d) inputs).sent
      = (Machine.run (step d) (start d) inputs).handled.flatMap Handled.sends)
    (h : ¬(Machine.run (step d) (start d) inputs).Crosses (.receive index throws)) :
    ¬(Machine.run (step d) (start d) (inputs ++ [.receive index throws])).Exact d := by
  intro hexact
  rw [Machine.run_concat] at hexact
  exact h ((sent_receive_iff (sound_run d inputs) hsent index throws).mp hexact.sent)

/-- Delivery is exact throughout a run if and only if every message handed over in it is judged as it was
published. -/
theorem exact_iff (d : Deployment π) (inputs : List (ClusterInput π ν)) :
    (∀ first rest, inputs = first ++ rest → (Machine.run (step d) (start d) first).Exact d) ↔
      Machine.Meets (step d) Crosses (start d) inputs := by
  have hexact : ∀ (s : Cluster π ν) input, (s.Sound d ∧ s.sent = s.handled.flatMap Handled.sends) →
      ((s.step d input).Sound d ∧ (s.step d input).sent = (s.step d input).handled.flatMap Handled.sends ↔
        s.Crosses input) := by
    rintro s input ⟨h, hsent⟩
    rw [and_iff_right (sound_step h input)]
    exact sent_step_iff h hsent input
  rw [← Machine.always_iff_of_exact hexact ⟨sound_start d, rfl⟩]
  refine forall_congr' fun first => forall_congr' fun rest => imp_congr_right fun _ => ?_
  rw [exact_iff_sent (sound_run d first), and_iff_right (sound_run d first)]

end Cluster

end Cluster

/-! ## Events that the channel loses or changes -/

/-- An API process and a worker that both listen. -/
def twoProcesses : Deployment Bool where
  listeners := [false, true]
  nodup := by decide
  maxConnections _ := 200
  maxConnectionsPerUser _ := 5

def reader : AuthenticatedUser where
  id := "u1"
  email := "reader@example.com"
  roles := ["staff"]
  permissions := ["jobs.read"]

def someStamp : Stamp where
  uuid := "7f1c4e0a-5b1d-4a53-9a35-0d7e6f2b8c11"
  now := "2026-01-01T00:00:00.000Z"
  trimmed := by decide

/-- The reader connects to one process, and the other publishes. -/
def crossing (input : RealtimeEventInput Unit) : List (ClusterInput Bool Unit) :=
  [.subscribe true "connection" reader [.jobs],
   .publish false input someStamp fun _ => false]

def longText : String := String.ofList (List.replicate 129 'x')

def longId : RealtimeEventInput Unit where
  channel := .jobs
  type := .jobUpdated
  id := some longText

def paddedAudience : RealtimeEventInput Unit where
  channel := .jobs
  type := .jobUpdated
  id := some "j1"
  occurredAt := some "now"
  audience := some " u1 "

theorem trim_longText : trim longText = longText := by
  have htext : longText.toList = List.replicate 129 'x' := String.toList_ofList
  unfold trim
  rw [htext]
  exact congrArg String.ofList (by decide)

theorem longText_too_long : within 1 128 longText = false := by
  have htext : longText.toList = List.replicate 129 'x' := String.toList_ofList
  have hunit : (codeUnits.units 'x').length = 1 := by decide
  have hlength : (codeUnits longText).length = 129 := by
    unfold codeUnits
    rw [htext, List.length_flatMap, List.map_replicate, hunit, List.sum_replicate, nsmul_eq_mul]
    rfl
  unfold within
  rw [hlength]
  rfl

theorem longText_ne : longText ≠ "" := by
  intro hempty
  have hlist : longText.toList = List.replicate 129 'x' := String.toList_ofList
  rw [hempty] at hlist
  cases hlist

theorem longId_dropped : (longId.stamped someStamp).trimmed.fits = false := by
  have hgiven : longId.id = some longText := rfl
  have hid : (longId.stamped someStamp).id = longText := by
    rw [stamped_id, hgiven, idFor_some]
    · exact trim_longText
    · rw [trim_longText]
      exact longText_ne
  unfold StampedEvent.fits StampedEvent.trimmed
  dsimp only
  rw [hid, trim_longText, longText_too_long, Bool.false_and, Bool.false_and]

/-- An id of 129 characters keeps an event from the connection that matches it, and blanks around the audience give
it to one that does not. -/
theorem crossing_not_exact :
    ¬(Machine.run (Cluster.step twoProcesses) (Cluster.start twoProcesses)
      (crossing longId ++ [.receive 1 fun _ => false])).Exact twoProcesses ∧
    ¬(Machine.run (Cluster.step twoProcesses) (Cluster.start twoProcesses)
      (crossing paddedAudience ++ [.receive 1 fun _ => false])).Exact twoProcesses := by
  constructor
  · refine Cluster.not_exact_of_not_crosses rfl fun h => ?_
    have hjudged := h ⟨0, true, false, longId.stamped someStamp⟩ rfl (by decide)
      ⟨"connection", reader, [.jobs]⟩ List.mem_cons_self
    dsimp only at hjudged
    rw [longId_dropped] at hjudged
    exact absurd hjudged (by decide +kernel)
  · refine Cluster.not_exact_of_not_crosses rfl fun h => ?_
    have hjudged := h ⟨0, true, false, paddedAudience.stamped someStamp⟩ rfl (by decide)
      ⟨"connection", reader, [.jobs]⟩ List.mem_cons_self
    exact absurd hjudged (by decide +kernel)

end DealFlow360.Realtime
