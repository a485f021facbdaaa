import DealFlow360.Js
import DealFlow360.Lib.Expiring

/-!
# The scheduler

Instances of the scheduler, and their ticks. A tick reads the clock once and
goes through the schedules; the lock and the builder of a payload are awaited,
and so are the handlers of the event. A cron expression is given by the times
that match it. All instances share the store of locks, or there is one instance
without a lock.

A schedule has its name, its trigger and the slot it was last seen in; with a
lock, a tick claims the slot's key in the shared store for the time the source
gives it. What a handler throws is reported and does not stop the loop. The
events that were emitted are kept in the state, with their slots.
-/

namespace DealFlow360.Scheduler

/-! ## Schedules -/

/-- When a schedule is due: on an interval, or in the minutes that match. -/
inductive Clock where
  | interval (intervalMs : ℕ)
  | cron (isMatch : Timestamp → Bool)

structure ScheduleDefinition where
  name : String
  intervalMs : Option ℕ := none
  /-- `none` where it is not given or blank; else the times that match, if it is valid. -/
  cron : Option (Except String (Timestamp → Bool)) := none
  trigger : Option String := none
  /-- Whether a `buildPayload` is given. -/
  buildsPayload : Bool := false

structure RegisteredSchedule where
  name : String
  clock : Clock
  trigger : String
  buildsPayload : Bool

/-- `NAME_PATTERN`. -/
def isScheduleName (name : String) : Bool :=
  match name.toList with
  | [] => false
  | first :: rest =>
      isLetter first && rest.length ≤ 63 && rest.all fun c =>
        isLetter c || ('0' ≤ c && c ≤ '9') || c = '.' || c = '_' || c = '-'
where
  isLetter (c : Char) : Bool := ('a' ≤ c && c ≤ 'z') || ('A' ≤ c && c ≤ 'Z')

/-- Exactly one of an interval and an expression is given. -/
def ScheduleDefinition.clock (definition : ScheduleDefinition) (name : String) : Except String Clock :=
  match definition.intervalMs, definition.cron with
  | some intervalMs, none =>
      if intervalMs < 1 then .error s!"Schedule \"{name}\" intervalMs must be a positive integer"
      else .ok (.interval intervalMs)
  | none, some (.ok isMatch) => .ok (.cron isMatch)
  | none, some (.error message) => .error message
  | _, _ => .error s!"Schedule \"{name}\" must set exactly one of intervalMs or cron"

def defaultTrigger : String := "scheduled"

def minuteMs : ℕ := 60000

def RegisteredSchedule.resolveSlot (schedule : RegisteredSchedule) (now : Timestamp) : Option Timestamp :=
  match schedule.clock with
  | .interval intervalMs => some (now / intervalMs * intervalMs)
  | .cron isMatch => if isMatch now then some (now / minuteMs * minuteMs) else none

/-- How long the lock of a slot lasts. -/
def RegisteredSchedule.ttlMs (schedule : RegisteredSchedule) : ℕ :=
  max 1000 (match schedule.clock with
    | .interval intervalMs => intervalMs
    | .cron _ => minuteMs)

/-! ## Instances -/

structure Instance where
  id : Id
  enabled : Bool
  started : Bool := false
  closed : Bool := false
  definitions : List RegisteredSchedule := []
  lastSlot : List (String × Timestamp) := []

namespace Instance

def last (scheduler : Instance) (name : String) : Option Timestamp :=
  (Table.lookup Prod.fst name scheduler.lastSlot).map Prod.snd

def setLast (scheduler : Instance) (name : String) (slot : Timestamp) : Instance :=
  { scheduler with lastSlot := Table.upsert Prod.fst (name, slot) scheduler.lastSlot }

/-- The slot that the schedule is in is taken as done. -/
def align (scheduler : Instance) (now : Timestamp) (schedule : RegisteredSchedule) : Instance :=
  match schedule.resolveSlot now with
  | none => scheduler
  | some slot => scheduler.setLast schedule.name slot

/-- The schedule is added; the slot it is in is noted if the instance has started. -/
def add (scheduler : Instance) (schedule : RegisteredSchedule) (now : Timestamp) : Instance :=
  let added := { scheduler with definitions := scheduler.definitions ++ [schedule] }
  if scheduler.started then added.align now schedule else added

def register (scheduler : Instance) (definition : ScheduleDefinition) (now : Timestamp) :
    Except String Instance :=
  let name := trim definition.name
  let trigger := trim (definition.trigger.getD defaultTrigger)
  if !isScheduleName name then
    .error (s!"Schedule name \"{definition.name}\" must start with a letter and use only letters, digits, " ++
      "'.', '_' or '-'")
  else if scheduler.definitions.any fun schedule => schedule.name = name then
    .error s!"Schedule \"{name}\" is already registered"
  else
    match definition.clock name with
    | .error message => .error message
    | .ok clock =>
        if trigger = "" then .error s!"Schedule \"{name}\" trigger must not be empty"
        else .ok (scheduler.add { name, clock, trigger, buildsPayload := definition.buildsPayload } now)

def start (scheduler : Instance) (now : Timestamp) : Instance :=
  if !scheduler.enabled || scheduler.closed || scheduler.started then scheduler
  else { scheduler.definitions.foldl (fun aligned schedule => aligned.align now schedule) scheduler with
    started := true }

def close (scheduler : Instance) : Instance := { scheduler with closed := true, started := false }

end Instance

/-! ## Ticks -/

/-- A schedule's name and one of its slots. -/
abbrev Slot := String × Timestamp

inductive TickPhase where
  /-- The tick comes to the schedule at the index. -/
  | reaching (index : ℕ)
  /-- It is about to try the slot's lock. -/
  | acquiring (index : ℕ) (schedule : RegisteredSchedule) (slot : Timestamp)
  /-- It waits for the payload. -/
  | building (index : ℕ) (schedule : RegisteredSchedule) (slot : Timestamp)
  /-- It waits for the handlers of the event. -/
  | emitting (index : ℕ)
  | returned
  | threw

structure Tick where
  id : Id
  scheduler : Id
  now : Timestamp
  phase : TickPhase

structure SchedulerState where
  now : Timestamp := 0
  locks : List (Expiring.Entry String String) := []
  instances : List Instance := []
  ticks : List Tick := []
  /-- The slots that ticks have taken, which each emits unless its payload cannot be built. -/
  taken : List Slot := []
  emitted : List Slot := []

def lockKey (name : String) (slot : Timestamp) : String := s!"scheduler:lock:{name}:{slot}"

namespace SchedulerState

def tryAcquire (s : SchedulerState) (schedule : RegisteredSchedule) (slot : Timestamp) :
    Bool × List (Expiring.Entry String String) :=
  Expiring.setNx s.now (lockKey schedule.name slot) "1" schedule.ttlMs s.locks

def getInstance (s : SchedulerState) (id : Id) : Option Instance := Table.lookup Instance.id id s.instances

def setInstance (s : SchedulerState) (scheduler : Instance) : SchedulerState :=
  { s with instances := Table.upsert Instance.id scheduler s.instances }

def emit (s : SchedulerState) (index : ℕ) (schedule : RegisteredSchedule) (slot : Timestamp) :
    SchedulerState × TickPhase :=
  ({ s with emitted := s.emitted ++ [(schedule.name, slot)] }, .emitting index)

/-- The slot is the tick's: its payload is built, or the event is emitted at once. -/
def take (s : SchedulerState) (index : ℕ) (schedule : RegisteredSchedule) (slot : Timestamp) :
    SchedulerState × TickPhase :=
  let s' := { s with taken := s.taken ++ [(schedule.name, slot)] }
  if schedule.buildsPayload then (s', .building index schedule slot) else s'.emit index schedule slot

/-- The tick comes to a schedule: unless its slot is the last one, it is noted, and locked if there is a lock. -/
def reach (lock : Bool) (s : SchedulerState) (scheduler : Instance) (now : Timestamp) (index : ℕ) :
    SchedulerState × TickPhase :=
  match scheduler.definitions[index]? with
  | none => (s, .returned)
  | some schedule =>
      match schedule.resolveSlot now with
      | none => (s, .reaching (index + 1))
      | some slot =>
          if scheduler.last schedule.name = some slot then (s, .reaching (index + 1))
          else
            let noted := s.setInstance (scheduler.setLast schedule.name slot)
            if lock then (noted, .acquiring index schedule slot) else noted.take index schedule slot

/-- The next step of the tick; `fails` says whether the lock's store or the builder throws. -/
def advance (lock : Bool) (s : SchedulerState) (tick : Tick) (fails : Bool) : SchedulerState × TickPhase :=
  match tick.phase with
  | .reaching index =>
      match s.getInstance tick.scheduler with
      | none => (s, .returned)
      | some scheduler => s.reach lock scheduler tick.now index
  | .acquiring index schedule slot =>
      if fails then (s, .reaching (index + 1))
      else
        match s.tryAcquire schedule slot with
        | (false, _) => (s, .reaching (index + 1))
        | (true, locks) => { s with locks }.take index schedule slot
  | .building index schedule slot => if fails then (s, .threw) else s.emit index schedule slot
  | .emitting index => (s, .reaching (index + 1))
  | .returned => (s, .returned)
  | .threw => (s, .threw)

end SchedulerState

inductive SchedulerEvent where
  | create (id : Id) (enabled : Bool)
  | register (scheduler : Id) (definition : ScheduleDefinition) (reading : Timestamp)
  | start (scheduler : Id) (reading : Timestamp)
  | close (scheduler : Id)
  /-- A tick begins, with what it reads of its clock or is given. -/
  | tick (id : Id) (scheduler : Id) (reading : Timestamp)
  | step (id : Id) (fails : Bool)
  | wait (milliseconds : ℕ)

def SchedulerState.step (lock : Bool) (s : SchedulerState) : SchedulerEvent → SchedulerState
  | .create id enabled =>
      match s.getInstance id with
      | some _ => s
      | none =>
          -- without a lock there is one instance only
          if lock || s.instances.isEmpty then s.setInstance { id, enabled } else s
  | .register scheduler definition reading =>
      match s.getInstance scheduler with
      | none => s
      | some scheduler =>
          match scheduler.register definition reading with
          | .error _ => s
          | .ok registered => s.setInstance registered
  | .start scheduler reading =>
      match s.getInstance scheduler with
      | none => s
      | some scheduler => s.setInstance (scheduler.start reading)
  | .close scheduler =>
      match s.getInstance scheduler with
      | none => s
      | some scheduler => s.setInstance scheduler.close
  | .tick id scheduler reading =>
      match Table.lookup Tick.id id s.ticks, s.getInstance scheduler with
      | none, some instance' =>
          if instance'.enabled && !instance'.closed then
            { s with ticks := Table.upsert Tick.id { id, scheduler, now := reading, phase := .reaching 0 } s.ticks }
          else s
      | _, _ => s
  | .step id fails =>
      match Table.lookup Tick.id id s.ticks with
      | none => s
      | some tick =>
          let next := s.advance lock tick fails
          { next.1 with ticks := Table.upsert Tick.id { tick with phase := next.2 } s.ticks }
  | .wait milliseconds => { s with now := s.now + milliseconds }

end DealFlow360.Scheduler
