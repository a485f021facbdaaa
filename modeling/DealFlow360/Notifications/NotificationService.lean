import DealFlow360.Js

/-!
# Notifications

`notify` as the `notification.dispatch` job runs it: an in-app notification and
an email, each a delivery of its own. A send of a channel succeeds, or fails
with an error the queue may retry or not; nothing else fails. The id of a
delivery is its place in the table. Contents, error messages, metadata, audit
and metrics are left out; keys are trimmed.

A job's run is a list of attempts, each with what its two sends come to. The
repository finds a delivery by its key when there is one; the preferences
decide which channels are skipped. An attempt that fails with an error the
queue may retry leaves its deliveries as failed, which is what the module about
retries looks at.
-/

namespace DealFlow360.Notifications

/-! ## Data -/

inductive Channel where
  | email | inApp | sms | push | webhook
  deriving DecidableEq, Repr

inductive Category where
  | orderUpdates | securityAlerts | reports | marketing | system
  deriving DecidableEq, Repr

inductive Priority where
  | low | normal | high | critical
  deriving DecidableEq, Repr

inductive DeliveryStatus where
  | queued | processing | sent | failed | retrying
  deriving DecidableEq, Repr

structure Recipient where
  userId : Option Id := none
  email : Option String := none
  phone : Option String := none
  deviceToken : Option String := none
  url : Option String := none
  deriving DecidableEq, Repr

structure NotificationDelivery where
  channel : Channel
  status : DeliveryStatus
  priority : Priority
  category : Category
  recipient : Recipient
  idempotencyKey : Option String
  attempt : ℕ := 0
  maxAttempts : ℕ
  deriving DecidableEq, Repr

structure User where
  id : Id
  email : String
  deriving DecidableEq, Repr

structure NotificationPreference where
  userId : Id
  category : Category
  channel : Channel
  enabled : Bool
  deriving DecidableEq, Repr

/-- What a channel's `send` comes to. -/
inductive SendOutcome where
  | sent
  | failed (retryable : Bool)
  deriving DecidableEq, Repr

structure ChannelSend where
  deliveryId : Id
  channel : Channel
  outcome : SendOutcome
  deriving DecidableEq, Repr

structure NotificationStore where
  users : List User := []
  preferences : List NotificationPreference := []
  deliveries : List NotificationDelivery := []
  /-- What the channels were asked to send. -/
  sends : List ChannelSend := []
  deriving DecidableEq, Repr

inductive NotificationError where
  | validation
  | notFound
  | conflict
  | externalService
  /-- The error of a channel. -/
  | channel
  | unretryable
  deriving DecidableEq, Repr

/-- `isRetryableJobError`. A channel's error is passed on only where it is retryable. -/
def NotificationError.isRetryable : NotificationError → Bool
  | validation | notFound | conflict | unretryable => false
  | externalService | channel => true

inductive SkipReason where
  | preferenceDisabled | duplicate
  deriving DecidableEq, Repr

structure SendNotificationInput where
  channel : Channel
  recipient : Recipient
  priority : Priority
  category : Category
  idempotencyKey : Option String
  deriving DecidableEq, Repr

structure SendNotificationResult where
  /-- None for the delivery `skipped`, which is not stored. -/
  delivery : Option Id
  skipped : Option SkipReason := none
  deriving DecidableEq, Repr

/-- `z.string().trim().min(1).max(128).optional()`. -/
def validKey (idempotencyKey : Option String) : Bool :=
  idempotencyKey.all fun key => decide (1 ≤ (codeUnits key).length ∧ (codeUnits key).length ≤ 128)

def attemptsForPriority : Priority → ℕ
  | .critical | .high => 5
  | .low => 2
  | .normal => 3

/-- Empty texts count as missing. -/
def given (text : Option String) : Bool :=
  text.any fun text => text ≠ ""

/-- `assertRecipientForChannel`. -/
def Recipient.suits (recipient : Recipient) : Channel → Bool
  | .inApp => recipient.userId.isSome
  | .email => given recipient.email
  | .sms => given recipient.phone
  | .push => given recipient.deviceToken
  | .webhook => given recipient.url

def isMandatoryCategory (category : Category) : Bool :=
  category = .securityAlerts

namespace NotificationStore

variable (s : NotificationStore)

/-! ## Repositories -/

def findDeliveryByIdempotencyKey (key : String) : Option Id :=
  s.deliveries.findIdx? fun delivery => delivery.idempotencyKey = some key

/-- A key that is taken is a conflict. -/
def createDelivery (delivery : NotificationDelivery) : Option (NotificationStore × Id) :=
  if (delivery.idempotencyKey.bind s.findDeliveryByIdempotencyKey).isSome then none
  else some ({ s with deliveries := s.deliveries ++ [delivery] }, s.deliveries.length)

def updateDelivery (id : Id) (change : NotificationDelivery → NotificationDelivery) : NotificationStore :=
  { s with deliveries := s.deliveries.modify id change }

def findPreference (userId : Id) (category : Category) (channel : Channel) : Option NotificationPreference :=
  s.preferences.find? fun preference =>
    preference.userId = userId && preference.category = category && preference.channel = channel

def findUser (userId : Id) : Option User :=
  s.users.find? fun user => user.id = userId

/-! ## Deliveries -/

/-- None where the user does not exist. -/
def resolveRecipient (channel : Channel) (recipient : Recipient) : Option Recipient :=
  match recipient.userId with
  | none => some recipient
  | some userId =>
      (s.findUser userId).map fun user =>
        { recipient with email := recipient.email <|> if channel = .email then some user.email else none }

def isCategoryEnabled (userId : Id) (category : Category) (channel : Channel) : Bool :=
  isMandatoryCategory category || (s.findPreference userId category channel).all (·.enabled)

/-- Without a key nothing is stored. -/
def skippedPreference (input : SendNotificationInput) (recipient : Recipient) :
    NotificationStore × Except NotificationError SendNotificationResult :=
  match input.idempotencyKey with
  | none => (s, .ok { delivery := none, skipped := some .preferenceDisabled })
  | some key =>
      match s.findDeliveryByIdempotencyKey key with
      | some existing => (s, .ok { delivery := some existing, skipped := some .duplicate })
      | none =>
          match s.createDelivery
              { channel := input.channel, status := .failed, priority := input.priority,
                category := input.category, recipient, idempotencyKey := some key, maxAttempts := 1 } with
          | none => (s, .error .conflict)
          | some (s, id) => (s, .ok { delivery := some id, skipped := some .preferenceDisabled })

def deliverById (deliveryId : Id) (outcome : SendOutcome) :
    NotificationStore × Except NotificationError Id :=
  match s.deliveries[deliveryId]? with
  | none => (s, .error .notFound)
  | some delivery =>
      if delivery.status = .sent then (s, .ok deliveryId)
      else
        let attempt := delivery.attempt + 1
        let s := s.updateDelivery deliveryId fun delivery =>
          { delivery with status := .processing, attempt }
        let s : NotificationStore :=
          { s with sends := s.sends ++ [{ deliveryId, channel := delivery.channel, outcome }] }
        match outcome with
        | .sent =>
            (s.updateDelivery deliveryId fun delivery => { delivery with status := .sent }, .ok deliveryId)
        | .failed retryable =>
            let retryable := retryable && attempt < delivery.maxAttempts
            (s.updateDelivery deliveryId fun delivery =>
                { delivery with status := if retryable then .retrying else .failed },
              .error (if retryable then .channel else .unretryable))

/-- `sendNotification`, never queued. -/
def sendNotification (ready : Channel → Bool) (input : SendNotificationInput) (outcome : SendOutcome) :
    NotificationStore × Except NotificationError SendNotificationResult :=
  if validKey input.idempotencyKey = false then (s, .error .validation)
  else
    match s.resolveRecipient input.channel input.recipient with
    | none => (s, .error .notFound)
    | some recipient =>
        match input.idempotencyKey.bind s.findDeliveryByIdempotencyKey with
        | some existing => (s, .ok { delivery := some existing, skipped := some .duplicate })
        | none =>
            if recipient.userId.any fun userId => !s.isCategoryEnabled userId input.category input.channel then
              s.skippedPreference input recipient
            else if recipient.suits input.channel = false then (s, .error .validation)
            else if ready input.channel = false then (s, .error .externalService)
            else
              match s.createDelivery
                  { channel := input.channel, status := .queued, priority := input.priority,
                    category := input.category, recipient, idempotencyKey := input.idempotencyKey,
                    maxAttempts := attemptsForPriority input.priority } with
              | none =>
                  match input.idempotencyKey.bind s.findDeliveryByIdempotencyKey with
                  | some existing => (s, .ok { delivery := some existing, skipped := some .duplicate })
                  | none => (s, .error .conflict)
              | some (s, id) =>
                  match s.deliverById id outcome with
                  | (s, .error error) => (s, .error error)
                  | (s, .ok id) => (s, .ok { delivery := some id })

end NotificationStore

/-! ## The dispatch job -/

structure NotifyRequest where
  userId : Id
  email : Bool := false
  category : Option Category := none
  priority : Option Priority := none
  idempotencyKey : Option String := none
  deriving DecidableEq, Repr

/-- What `deliverLegacy` sends on a channel. -/
def NotifyRequest.input (request : NotifyRequest) (channel : Channel) : SendNotificationInput where
  channel
  recipient := { userId := some request.userId }
  priority := request.priority.getD .normal
  category := request.category.getD .system
  idempotencyKey :=
    if channel = .email then request.idempotencyKey.map (· ++ ":email") else request.idempotencyKey

/-- It answers with what became of the in-app notification. -/
def NotificationStore.deliverLegacy (s : NotificationStore) (ready : Channel → Bool) (request : NotifyRequest)
    (outcome : Channel → SendOutcome) : NotificationStore × Except NotificationError SendNotificationResult :=
  match s.sendNotification ready (request.input .inApp) (outcome .inApp) with
  | (s, .error error) => (s, .error error)
  | (s, .ok inApp) =>
      if request.email then
        match s.sendNotification ready (request.input .email) (outcome .email) with
        | (s, .error error) => (s, .error error)
        | (s, .ok _) => (s, .ok inApp)
      else (s, .ok inApp)

inductive DispatchStatus where
  | running | returned | failed
  deriving DecidableEq, Repr

structure DispatchJob where
  store : NotificationStore
  status : DispatchStatus := .running
  attempts : ℕ := 0
  maxAttempts : ℕ
  deriving DecidableEq, Repr

/-- The channels of the default registry. The others are always ready. -/
structure ChannelOptions where
  emailReady : Bool
  smsReady : Bool
  deriving DecidableEq, Repr

def ChannelOptions.ready (options : ChannelOptions) : Channel → Bool
  | .email => options.emailReady
  | .sms => options.smsReady
  | .inApp | .push | .webhook => true

/-- An attempt of the queue, which retries while attempts are left and the error is retryable. -/
def DispatchJob.step (options : ChannelOptions) (request : NotifyRequest) (job : DispatchJob)
    (outcome : Channel → SendOutcome) : DispatchJob :=
  match job.status with
  | .returned | .failed => job
  | .running =>
      let attempts := job.attempts + 1
      match job.store.deliverLegacy options.ready request outcome with
      | (store, .ok _) => { job with store, attempts, status := .returned }
      | (store, .error error) =>
          { job with
            store, attempts
            status := if attempts < job.maxAttempts ∧ error.isRetryable then .running else .failed }

end DealFlow360.Notifications
