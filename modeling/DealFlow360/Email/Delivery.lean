import DealFlow360.Js
import DealFlow360.Lib.Expiring

/-!
# Delivery of emails

The steps of `deliver` on the idempotency store and the provider. Every step
may fail, without an effect, and a call may be cut off after any step.
Contents, recipients and the prefix of the store's keys are left out.

The store answers `acquire` with the status it found or with the lease it gave,
by the lifetimes of the source. The provider's answer, each failure and each
cut are events of the run; beside the store, the state keeps what the provider
has sent, by key.
-/

namespace DealFlow360.Email

/-! ## State -/

inductive IdempotencyStatus where
  | inProgress | completed
  deriving DecidableEq, Repr

/-- `JOBS.IDEMPOTENCY_TTL_MS`. -/
def idempotencyTtlMs : ℕ := 24 * 60 * 60 * 1000

/-- Where a call stands before its next step. -/
inductive DeliverStage where
  /-- `isCompleted`. -/
  | checking
  /-- `isCompleted` in `begin`. -/
  | beginning
  | acquiring
  | sending
  | completing
  /-- `release` reads the key; `sent` says whether the provider has sent the email. -/
  | releasing (sent : Bool)
  | deleting (sent : Bool)
  | returned
  | threw
  /-- The call was cut off. -/
  | crashed
  deriving DecidableEq, Repr

structure DeliverCall where
  id : Id
  idempotencyKey : Option String
  stage : DeliverStage
  deriving DecidableEq, Repr

structure EmailState where
  now : Timestamp := 0
  entries : List (Expiring.Entry String IdempotencyStatus) := []
  calls : List DeliverCall := []
  /-- The keys for which the provider has sent an email. -/
  sent : List String := []

namespace EmailState

variable (s : EmailState)

def status (key : String) : Option IdempotencyStatus := Expiring.get s.now key s.entries

/-- `begin`'s `setNx`. -/
def acquire (key : String) : Bool × List (Expiring.Entry String IdempotencyStatus) :=
  Expiring.setNx s.now key .inProgress idempotencyTtlMs s.entries

def complete (key : String) : EmailState :=
  { s with entries := Expiring.set s.now key .completed idempotencyTtlMs s.entries }

def delete (key : String) : EmailState :=
  { s with entries := Expiring.del key s.entries }

/-- The next step of a call with a key, and where it stands then. -/
def advanceKeyed (key : String) (fails : Bool) : DeliverStage → EmailState × DeliverStage
  | .checking =>
      if fails then (s, .threw)
      else (s, if s.status key = some .completed then .returned else .beginning)
  | .beginning =>
      if fails then (s, .threw)
      else (s, if s.status key = some .completed then .returned else .acquiring)
  | .acquiring =>
      if fails then (s, .threw)
      else
        match s.acquire key with
        | (false, _) => (s, .returned)
        | (true, entries) => ({ s with entries }, .sending)
  | .sending => if fails then (s, .releasing false) else ({ s with sent := s.sent ++ [key] }, .completing)
  | .completing => if fails then (s, .releasing true) else (s.complete key, .returned)
  | .releasing sent =>
      if fails then (s, .threw)
      else (s, if s.status key = some .inProgress then .deleting sent else .threw)
  | .deleting _ => if fails then (s, .threw) else (s.delete key, .threw)
  | .returned => (s, .returned)
  | .threw => (s, .threw)
  | .crashed => (s, .crashed)

/-- Without a key the email is just sent. -/
def advance (call : DeliverCall) (fails : Bool) : EmailState × DeliverStage :=
  match call.idempotencyKey with
  | some key => s.advanceKeyed key fails call.stage
  | none =>
      (s, match call.stage with
        | .sending => if fails then .threw else .returned
        | stage => stage)

end EmailState

inductive EmailEvent where
  | deliver (id : Id) (idempotencyKey : Option String)
  | step (id : Id) (fails : Bool)
  | crash (id : Id)
  | wait (milliseconds : ℕ)
  deriving DecidableEq, Repr

/-- The call is over, or was cut off. -/
def DeliverStage.isOver : DeliverStage → Bool
  | returned | threw | crashed => true
  | _ => false

def EmailState.step (s : EmailState) : EmailEvent → EmailState
  | .deliver id idempotencyKey =>
      match Table.lookup DeliverCall.id id s.calls with
      | some _ => s
      | none =>
          -- an empty key is none
          let idempotencyKey := idempotencyKey.filter (· ≠ "")
          let stage := if idempotencyKey.isSome then DeliverStage.checking else .sending
          { s with calls := Table.upsert DeliverCall.id { id, idempotencyKey, stage } s.calls }
  | .step id fails =>
      match Table.lookup DeliverCall.id id s.calls with
      | none => s
      | some call =>
          let next := s.advance call fails
          { next.1 with calls := Table.upsert DeliverCall.id { call with stage := next.2 } s.calls }
  | .crash id =>
      match Table.lookup DeliverCall.id id s.calls with
      | none => s
      | some call =>
          if call.stage.isOver then s
          else { s with calls := Table.upsert DeliverCall.id { call with stage := .crashed } s.calls }
  | .wait milliseconds => { s with now := s.now + milliseconds }

end DealFlow360.Email
