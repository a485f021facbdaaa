import DealFlow360.Js
import DealFlow360.Lib.Expiring

/-!
# One-time passwords

The calls `request` and `verify` for one subject, that is one purpose and one
destination, with every step on the key-value store a step of its own. The
subject's challenge and the marks of used challenges are under keys of
different prefixes, so each has a store here. The hash of a code, with the
secret and the subject, is given. Beside the stores the state keeps the
challenges that a wrong code was compared with, those that were claimed and
verified, and which record was written over which.

`evaluateOtpRecord` makes its checks in the order of the source: there is a
record, it is not consumed, not expired, has attempts left, and the hashes
agree. A request that cannot deliver its code deletes the record again. The
codes a call accepts are those of four to eight digits after trimming.
-/

namespace DealFlow360.Otp

/-! ## Records -/

structure OtpRecord where
  id : Id
  codeHash : String
  attempts : ℕ
  maxAttempts : ℕ
  expiresAt : Timestamp
  /-- A time is never zero, so that a time given is one that counts as true. -/
  consumedAt : Option Timestamp
  createdAt : Timestamp
  lastSentAt : Timestamp
  deriving DecidableEq, Repr

structure OtpConfig where
  digits : ℕ
  ttlMs : ℕ
  maxAttempts : ℕ
  resendCooldownMs : ℕ
  /-- `hashOtp` with the secret, the purpose and the destination. -/
  hashOtp : String → String

inductive OtpVerifyFailureReason where
  | notFound | expired | consumed | maxAttempts | mismatch
  deriving DecidableEq, Repr

inductive OtpError where
  | authentication (message : String)
  | rateLimit (message : String) (retryAfterSeconds : ℕ)
  | validation (message : String)
  | externalService (message : String)
  deriving DecidableEq, Repr

def verifyError : OtpVerifyFailureReason → OtpError
  | .expired => .authentication "OTP has expired"
  | .consumed => .authentication "OTP has already been used"
  | .maxAttempts => .authentication "Too many incorrect OTP attempts"
  | .notFound | .mismatch => .authentication "Invalid or expired OTP"

/-- What a record says to a code; a record that passes is answered. -/
def evaluateOtpRecord (record : Option OtpRecord) (candidateHash : String) (now : Timestamp) :
    Except (OtpVerifyFailureReason × Option OtpRecord) OtpRecord :=
  match record with
  | none => .error (.notFound, none)
  | some record =>
      if record.consumedAt.isSome then .error (.consumed, some record)
      else if record.expiresAt ≤ now then .error (.expired, some record)
      else if record.maxAttempts ≤ record.attempts then .error (.maxAttempts, some record)
      else if record.codeHash ≠ candidateHash then .error (.mismatch, some record)
      else .ok record

/-- Codes of the given numbers of digits. -/
def isCode (least most : ℕ) (code : String) : Bool :=
  least ≤ code.length && code.length ≤ most && code.toList.all fun c => '0' ≤ c && c ≤ '9'

/-! ## State -/

/-- Where a call stands before its next step. -/
inductive OtpStage where
  /-- A request, with the code that its generator will answer. -/
  | request (code : String)
  | creating (code : String)
  | delivering
  | deleting
  | verify (code : String)
  /-- A wrong code was compared, and the attempt is to be written. -/
  | incrementing (record : OtpRecord)
  | consuming (record : OtpRecord)
  /-- The challenge was claimed, and is to be written as consumed. -/
  | claimed (record : OtpRecord)
  | returned
  | threw (error : OtpError)
  deriving DecidableEq, Repr

structure OtpCall where
  id : Id
  stage : OtpStage
  deriving DecidableEq, Repr

structure OtpState where
  now : Timestamp := 0
  challenge : List (Expiring.Entry Unit OtpRecord) := []
  used : List (Expiring.Entry Id Unit) := []
  nextId : Id := 0
  calls : List OtpCall := []
  /-- The challenges that a wrong code was compared with, once for each comparison. -/
  compared : List Id := []
  claimed : List Id := []
  verified : List Id := []
  /-- The challenge whose record was stored, and that whose record was written over it. -/
  overwritten : List (Id × Id) := []

namespace OtpState

variable (config : OtpConfig) (s : OtpState)

def stored : Option OtpRecord := Expiring.get s.now () s.challenge

def save (record : OtpRecord) : OtpState :=
  { s with
    challenge := Expiring.set s.now () record (max 1 (record.expiresAt - s.now)) s.challenge
    overwritten := s.overwritten ++ (s.stored.map fun stored => (stored.id, record.id)).toList }

def newRecord (code : String) : OtpRecord :=
  { id := s.nextId
    codeHash := config.hashOtp code
    attempts := 0
    maxAttempts := config.maxAttempts
    expiresAt := s.now + config.ttlMs
    consumedAt := none
    createdAt := s.now
    lastSentAt := s.now }

/-- How long a new request has to wait after the last one. -/
def waitMs : ℤ :=
  match s.stored with
  | some existing =>
      if existing.consumedAt.isNone then
        (existing.lastSentAt : ℤ) + config.resendCooldownMs - s.now
      else 0
  | none => 0

/-- The next step of a call, and where it stands then; `fails` says whether the delivery fails. -/
def advance (fails : Bool) : OtpStage → OtpState × OtpStage
  | .request code =>
      if 0 < s.waitMs config then
        (s, .threw (.rateLimit "Wait before requesting another code"
          (max 1 ((s.waitMs config + 999) / 1000).toNat)))
      else if !isCode config.digits config.digits code then
        (s, .threw (.validation "OTP generator produced an invalid code"))
      else (s, .creating code)
  | .creating code => ({ s.save (s.newRecord config code) with nextId := s.nextId + 1 }, .delivering)
  | .delivering => (s, if fails then .deleting else .returned)
  | .deleting =>
      ({ s with challenge := Expiring.del () s.challenge }, .threw (.externalService "Failed to deliver OTP"))
  | .verify code =>
      if !isCode 4 8 (trim code) then (s, .threw (.validation "Invalid OTP verification"))
      else
        match evaluateOtpRecord s.stored (config.hashOtp (trim code)) s.now with
        | .ok record => (s, .consuming record)
        | .error (.mismatch, some record) => ({ s with compared := s.compared ++ [record.id] }, .incrementing record)
        | .error (reason, _) => (s, .threw (verifyError reason))
  | .incrementing record =>
      (s.save { record with attempts := record.attempts + 1 }, .threw (verifyError .mismatch))
  | .consuming record =>
      match Expiring.setNx s.now record.id () (max 1 (record.expiresAt - s.now)) s.used with
      | (false, _) => (s, .threw (verifyError .consumed))
      | (true, used) => ({ s with used, claimed := s.claimed ++ [record.id] }, .claimed record)
  | .claimed record =>
      ({ s.save { record with consumedAt := some s.now } with verified := s.verified ++ [record.id] }, .returned)
  | .returned => (s, .returned)
  | .threw error => (s, .threw error)

end OtpState

inductive OtpEvent where
  | request (id : Id) (code : String)
  | verify (id : Id) (code : String)
  | step (id : Id) (fails : Bool)
  | wait (milliseconds : ℕ)
  deriving DecidableEq, Repr

def OtpState.begin (s : OtpState) (id : Id) (stage : OtpStage) : OtpState :=
  match Table.lookup OtpCall.id id s.calls with
  | none => { s with calls := Table.upsert OtpCall.id { id, stage } s.calls }
  | some _ => s

def OtpState.step (config : OtpConfig) (s : OtpState) : OtpEvent → OtpState
  | .request id code => s.begin id (.request code)
  | .verify id code => s.begin id (.verify code)
  | .step id fails =>
      match Table.lookup OtpCall.id id s.calls with
      | none => s
      | some call =>
          let next := s.advance config fails call.stage
          { next.1 with calls := Table.upsert OtpCall.id { call with stage := next.2 } s.calls }
  | .wait milliseconds => { s with now := s.now + milliseconds }

end DealFlow360.Otp
