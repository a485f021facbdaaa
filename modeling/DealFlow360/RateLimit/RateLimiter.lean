import DealFlow360.Js
import DealFlow360.Lib.Expiring

/-!
# The rate limiter

`consume` increments the counter of its key and later, after its awaits,
decides on the result it was given. The memory store gives out the object it
counts in, the Redis script a pair of numbers.

The memory store's object is modelled as a reference: a record in the state
that increments change and decisions read. The Redis script increments, sets
the expiry of a new key and answers with the pair at that moment. Awaits are
steps of their own, so any number of calls can be between an increment and its
decision.
-/

namespace DealFlow360.RateLimit

structure RateLimitIncrementResult where
  count : ℕ
  resetAt : Timestamp
  deriving DecidableEq, Repr

structure RateLimiterOptions where
  keyPrefix : String
  windowMs : ℕ
  max : ℕ
  deriving DecidableEq, Repr

structure RateLimitDecision where
  allowed : Bool
  limit : ℕ
  remaining : ℕ
  resetAt : Timestamp
  deriving DecidableEq, Repr

def RateLimiterOptions.decision (options : RateLimiterOptions) (result : RateLimitIncrementResult) :
    RateLimitDecision where
  allowed := result.count ≤ options.max
  limit := options.max
  remaining := options.max - result.count
  resetAt := result.resetAt

/-- A store that keeps `σ` and answers with a `ρ`. -/
structure RateLimitStore (σ ρ : Type) where
  increment (now : Timestamp) (key : String) (windowMs : ℕ) (kept : σ) : σ × ρ
  /-- What a call finds in the result when it decides. -/
  read (now : Timestamp) (kept : σ) (result : ρ) : RateLimitIncrementResult

/-! ## The memory store -/

structure MemorySlot where
  key : String
  entry : ℕ
  deriving DecidableEq, Repr

/-- The objects are referred to by their places; `entries` is the `Map`. -/
structure MemoryRateLimitStore where
  entries : List MemorySlot := []
  objects : List RateLimitIncrementResult := []
  deriving DecidableEq, Repr

namespace MemoryRateLimitStore

variable (store : MemoryRateLimitStore)

/-- The entry of the key, with its object. -/
def current (key : String) : Option (ℕ × RateLimitIncrementResult) :=
  (Table.lookup MemorySlot.key key store.entries).bind fun slot =>
    store.objects[slot.entry]?.map fun object => (slot.entry, object)

/-- The entry whose window has not ended. -/
def live (now : Timestamp) (key : String) : Option ℕ :=
  ((store.current key).filter fun entry => decide (now < entry.2.resetAt)).map Prod.fst

/-- A window that is open is counted in the object it was given. -/
def increment (now : Timestamp) (key : String) (windowMs : ℕ) : MemoryRateLimitStore × ℕ :=
  match store.live now key with
  | none =>
      let next : RateLimitIncrementResult := { count := 1, resetAt := now + windowMs }
      ({ entries := Table.upsert MemorySlot.key { key, entry := store.objects.length } store.entries
         objects := store.objects ++ [next] }, store.objects.length)
  | some entry =>
      ({ store with
          objects := store.objects.modify entry fun object => { object with count := object.count + 1 } }, entry)

def object (entry : ℕ) : RateLimitIncrementResult :=
  store.objects[entry]?.getD { count := 0, resetAt := 0 }

end MemoryRateLimitStore

def memoryStore : RateLimitStore MemoryRateLimitStore ℕ where
  increment now key windowMs store := store.increment now key windowMs
  read _ store entry := store.object entry

/-! ## The Redis store -/

structure WindowReply where
  current : ℕ
  ttl : ℕ
  deriving DecidableEq, Repr

/-- `INCREMENT_WINDOW_SCRIPT`. `INCR` keeps the time to live. -/
def incrementWindow (now : Timestamp) (key : String) (windowMs : ℕ) (entries : List (Expiring.Entry String ℕ)) :
    List (Expiring.Entry String ℕ) × WindowReply :=
  let found := (Table.lookup Expiring.Entry.key key entries).filter (Expiring.Entry.live now)
  let current := (found.map Expiring.Entry.value).getD 0 + 1
  let expiresAt := if current = 1 then some (now + windowMs) else found.bind Expiring.Entry.expiresAt
  let expiresAt := expiresAt.getD (now + windowMs)
  (Table.upsert Expiring.Entry.key { key, value := current, expiresAt := some expiresAt } entries,
    { current, ttl := expiresAt - now })

def redisStore : RateLimitStore (List (Expiring.Entry String ℕ)) WindowReply where
  increment := incrementWindow
  read now _ reply := { count := reply.current, resetAt := now + reply.ttl }

/-! ## Calls -/

structure ConsumeCall (ρ : Type) where
  id : Id
  result : ρ
  /-- The count at the increment. -/
  counted : ℕ
  decision : Option RateLimitDecision := none
  deriving DecidableEq, Repr

structure LimiterState (σ ρ : Type) where
  now : Timestamp := 0
  store : σ
  calls : List (ConsumeCall ρ) := []
  deriving DecidableEq, Repr

inductive LimiterEvent where
  /-- `consume` up to its increment. -/
  | consume (id : Id) (key : String)
  /-- The rest of it. -/
  | decide (id : Id)
  | wait (milliseconds : ℕ)
  deriving DecidableEq, Repr

def RateLimiterOptions.storeKey (options : RateLimiterOptions) (key : String) : String :=
  options.keyPrefix ++ ":" ++ key

def LimiterState.step {σ ρ : Type} (store : RateLimitStore σ ρ) (options : RateLimiterOptions)
    (s : LimiterState σ ρ) : LimiterEvent → LimiterState σ ρ
  | .consume id key =>
      match Table.lookup ConsumeCall.id id s.calls with
      | some _ => s
      | none =>
          let next := store.increment s.now (options.storeKey key) options.windowMs s.store
          { s with
            store := next.1
            calls := Table.upsert ConsumeCall.id
              { id, result := next.2, counted := (store.read s.now next.1 next.2).count } s.calls }
  | .decide id =>
      match Table.lookup ConsumeCall.id id s.calls with
      | none => s
      | some call =>
          match call.decision with
          | some _ => s
          | none =>
              let decision := options.decision (store.read s.now s.store call.result)
              { s with
                calls := Table.upsert ConsumeCall.id { call with decision := some decision } s.calls }
  | .wait milliseconds => { s with now := s.now + milliseconds }

end DealFlow360.RateLimit
