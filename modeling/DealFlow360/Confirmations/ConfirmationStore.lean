import DealFlow360.Js
import DealFlow360.Lib.Expiring

/-!
# Confirmation stores

`save`, `take` and `clear` of the intent and the copilot confirmations on the
key-value store. The two stores differ in the key of the data: the token for an
intent, the conversation for the copilot, where a later command replaces the
one before. What is to be confirmed is left out.

A call makes one step on the key-value store at a time: a take reads the data,
claims it with `setNx` on its token's key, and deletes what stands under the
data's key; a save draws a token and writes the data; a clear deletes. Both
stores are one definition with the way its key is made as a parameter. The
lifetimes of the entries are the source's.
-/

namespace DealFlow360.Confirmations

/-! ## Commands -/

structure PendingCommand where
  token : Id
  /-- An intent has none: the field stands for a part of its content. -/
  conversationId : Id
  userId : Id
  expiresAt : Timestamp
  deriving DecidableEq, Repr

inductive ConfirmationStore where
  /-- `KvIntentConfirmationStore`. -/
  | intents
  /-- `KvCopilotConfirmationStore`. -/
  | copilot
  deriving DecidableEq, Repr

/-- `CONFIRMATION_TTL_MS` of `INTENTS` and `COPILOT`. -/
def ConfirmationStore.ttlMs : ConfirmationStore → ℕ
  | intents => 10 * 60 * 1000
  | copilot => 10 * 60 * 1000

/-- What a command is stored under. -/
def ConfirmationStore.dataKey (store : ConfirmationStore) (record : PendingCommand) : Id :=
  match store with
  | intents => record.token
  | copilot => record.conversationId

/-- What is claimed, for a record read under the key. -/
def ConfirmationStore.usedKey (store : ConfirmationStore) (key : Id) (record : PendingCommand) : Id :=
  match store with
  | intents => key
  | copilot => record.token

/-! ## Calls -/

/-- Where a call of `take` stands before its next step. -/
inductive TakeStage where
  | reading
  | checking (raw : Option PendingCommand)
  | claiming (record : PendingCommand) (remainingMs : ℕ)
  | deleting (record : PendingCommand)
  | returned (record : Option PendingCommand)
  deriving DecidableEq, Repr

structure TakeCall where
  id : Id
  /-- The token of an intent, the conversation of a copilot command. -/
  key : Id
  userId : Id
  stage : TakeStage := .reading
  deriving DecidableEq, Repr

structure ConfirmationState where
  now : Timestamp := 0
  data : List (Expiring.Entry Id PendingCommand) := []
  used : List (Expiring.Entry Id Unit) := []
  calls : List TakeCall := []
  nextToken : Id := 0
  saved : List PendingCommand := []
  /-- Saved, and not since claimed, cleared or replaced. -/
  pending : List PendingCommand := []
  deriving DecidableEq, Repr

namespace ConfirmationState

variable (s : ConfirmationState)

/-- Without the commands stored under the key. -/
def forget (store : ConfirmationStore) (key : Id) : List PendingCommand :=
  s.pending.filter fun record => store.dataKey record ≠ key

def save (store : ConfirmationStore) (conversationId userId : Id) : ConfirmationState :=
  let record : PendingCommand :=
    { token := s.nextToken, conversationId, userId, expiresAt := s.now + store.ttlMs }
  { s with
    data := Expiring.set s.now (store.dataKey record) record store.ttlMs s.data
    nextToken := s.nextToken + 1
    saved := s.saved ++ [record]
    pending := s.forget store (store.dataKey record) ++ [record] }

/-- The next step of a call, and where it stands then. -/
def advance (store : ConfirmationStore) (call : TakeCall) : ConfirmationState × TakeStage :=
  match call.stage with
  | .reading => (s, .checking (Expiring.get s.now call.key s.data))
  | .checking none => (s, .returned none)
  | .checking (some record) =>
      (s, if record.userId ≠ call.userId ∨ record.expiresAt ≤ s.now then .returned none
        else .claiming record (max 1 (record.expiresAt - s.now)))
  | .claiming record remainingMs =>
      match Expiring.setNx s.now (store.usedKey call.key record) () remainingMs s.used with
      | (false, _) => (s, .returned none)
      | (true, used) =>
          ({ s with used, pending := s.pending.filter fun other => other.token ≠ record.token }, .deleting record)
  | .deleting record => ({ s with data := Expiring.del call.key s.data }, .returned (some record))
  | .returned record => (s, .returned record)

end ConfirmationState

inductive ConfirmationEvent where
  | save (conversationId userId : Id)
  | take (id key userId : Id)
  | step (id : Id)
  /-- Of the copilot's store only. -/
  | clear (conversationId : Id)
  | wait (milliseconds : ℕ)
  deriving DecidableEq, Repr

def ConfirmationState.step (store : ConfirmationStore) (s : ConfirmationState) :
    ConfirmationEvent → ConfirmationState
  | .save conversationId userId => s.save store conversationId userId
  | .take id key userId =>
      match Table.lookup TakeCall.id id s.calls with
      | some _ => s
      | none => { s with calls := Table.upsert TakeCall.id { id, key, userId } s.calls }
  | .step id =>
      match Table.lookup TakeCall.id id s.calls with
      | none => s
      | some call =>
          let next := s.advance store call
          { next.1 with calls := Table.upsert TakeCall.id { call with stage := next.2 } s.calls }
  | .clear conversationId =>
      match store with
      | .intents => s
      | .copilot =>
          { s with
            data := Expiring.del conversationId s.data
            pending := s.forget .copilot conversationId }
  | .wait milliseconds => { s with now := s.now + milliseconds }

end DealFlow360.Confirmations
