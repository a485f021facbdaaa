import DealFlow360.Lib.Machine
import DealFlow360.Lib.Table
import DealFlow360.Types

/-!
# Sessions and their refresh tokens

Login, refresh, logout and password reset as the queries they make, one step
each; between two steps of a call, others take theirs. What a call holds
between its steps is its stage. A refresh token can be presented only after
some call has answered with it: its id is random and its value is signed.

A `Call` carries its stage as data: what was read, what is still to be written.
`AuthState.step` makes one query of one call, and a schedule is a list of which
call takes the next step, so every interleaving of the repository's queries is
a schedule. A claim is the conditional update of the source: it writes where
the token is still active, and counts the rows it wrote.

The properties are proved in the modules about rotation and about the end of a
session.
-/

namespace DealFlow360.Auth

/-! ## Rows -/

/-- The value of a refresh token, by the claims it is signed over. -/
structure RefreshToken where
  jti : Id
  sub : Id
  exp : Timestamp
  deriving DecidableEq, Repr

inductive UserStatus where
  | active | invited | disabled
  deriving DecidableEq, Repr

structure User where
  id : Id
  email : String
  passwordHash : String
  status : UserStatus := .active
  deriving DecidableEq, Repr

/-- A row of `refresh_tokens`. -/
structure StoredToken where
  id : Id
  userId : Id
  tokenHash : String
  familyId : Id
  expiresAt : Timestamp
  revokedAt : Option Timestamp := none
  replacedBy : Option Id := none
  deriving DecidableEq, Repr

/-- Not revoked. -/
abbrev StoredToken.Active (row : StoredToken) : Prop := row.revokedAt = none

structure AuthStore where
  users : List User := []
  refreshTokens : List StoredToken := []
  deriving DecidableEq, Repr

/-- What the service is created with: SHA-256, bcrypt, the password policy and the lifetime of a refresh
token. Hashing a password draws a salt. -/
structure AuthServiceDependencies where
  hashToken : RefreshToken → String
  bcryptHash : String → ℕ → String
  bcryptCompare : String → String → Bool
  toLowerCase : String → String
  meetsPolicy : String → Bool
  refreshExpiresIn : ℕ

/-! ## Queries -/

/-- Every row that meets the condition is rewritten. -/
def updateMany {α : Type} (p : α → Bool) (f : α → α) (rows : List α) : List α :=
  rows.map fun row => if p row then f row else row

namespace AuthStore

def findByEmailForAuth (deps : AuthServiceDependencies) (store : AuthStore) (email : String) :
    Option User :=
  store.users.find? fun user => user.email = deps.toLowerCase (trim email)

def findByIdWithRoles (store : AuthStore) (id : Id) : Option User :=
  Table.lookup User.id id store.users

/-- `users.update` of the password hash. -/
def updatePasswordHash (id : Id) (passwordHash : String) (store : AuthStore) : AuthStore :=
  { store with
    users := updateMany (fun user => user.id = id) (fun user => { user with passwordHash }) store.users }

def findByTokenHash (store : AuthStore) (tokenHash : String) : Option StoredToken :=
  store.refreshTokens.find? fun row => row.tokenHash = tokenHash

/-- The insert, which fails where the id or the hash is taken. -/
def create (row : StoredToken) (store : AuthStore) : Option AuthStore :=
  if store.refreshTokens.any fun other => other.id = row.id || other.tokenHash = row.tokenHash then none
  else some { store with refreshTokens := store.refreshTokens ++ [row] }

/-- Whether the token was still there to be claimed, and the table with it claimed. -/
def claimForRotation (id replacedBy : Id) (now : Timestamp) (store : AuthStore) : Bool × AuthStore :=
  let claims := fun row : StoredToken => row.id = id && row.revokedAt.isNone
  (store.refreshTokens.countP claims = 1,
    { store with
      refreshTokens := updateMany claims
        (fun row => { row with revokedAt := some now, replacedBy := some replacedBy })
        store.refreshTokens })

def revoke (id : Id) (now : Timestamp) (store : AuthStore) : AuthStore :=
  { store with
    refreshTokens := updateMany (fun row => row.id = id)
      (fun row => { row with revokedAt := some now, replacedBy := none }) store.refreshTokens }

def revokeFamily (familyId : Id) (now : Timestamp) (store : AuthStore) : AuthStore :=
  { store with
    refreshTokens := updateMany (fun row => row.familyId = familyId && row.revokedAt.isNone)
      (fun row => { row with revokedAt := some now }) store.refreshTokens }

def revokeAllForUser (userId : Id) (now : Timestamp) (store : AuthStore) : AuthStore :=
  { store with
    refreshTokens := updateMany (fun row => row.userId = userId && row.revokedAt.isNone)
      (fun row => { row with revokedAt := some now }) store.refreshTokens }

end AuthStore

/-! ## Calls -/

inductive AuthRequest where
  | login (email password : String)
  | refresh (token : RefreshToken)
  | logout (token : RefreshToken)
  | resetPassword (email password : String)
  deriving DecidableEq, Repr

/-- What a call answers. A session is answered with its family and, after a login, with the password
hash that was verified. -/
inductive Answer where
  | session (token : RefreshToken) (familyId : Id) (verified : Option String)
  | reuse (familyId : Id)
  | disabled | expired | invalid | refused | revoked | reset
  deriving DecidableEq, Repr

/-- Why a family is revoked. -/
inductive FamilyEnd where
  | reuse | disabled | logout
  deriving DecidableEq, Repr

def FamilyEnd.answer (familyId : Id) : FamilyEnd → Answer
  | reuse => .reuse familyId
  | disabled => .disabled
  | logout => .revoked

/-- Where a call stands, with what it holds for its next query. -/
inductive CallStage where
  | waiting
  /-- The password matched the record's hash; the roles are read next. -/
  | verified (record : User)
  | issuing (record : User)
  /-- The presented token is active; its user is read next. -/
  | found (stored : StoredToken)
  | rotating (stored : StoredToken)
  /-- The successor is stored; the presented token is claimed next. -/
  | claiming (stored : StoredToken) (next : RefreshToken)
  /-- Somebody else claimed it; the successor is revoked next. -/
  | undoing (stored : StoredToken) (next : RefreshToken)
  /-- The family is revoked next. -/
  | ending (stored : StoredToken) (reason : FamilyEnd)
  | resetting (userId : Id) (passwordHash : String)
  | updated (userId : Id)
  | answered (answer : Answer)
  deriving DecidableEq, Repr

structure Call where
  id : ℕ
  request : AuthRequest
  stage : CallStage := .waiting
  deriving DecidableEq, Repr

structure AuthState where
  store : AuthStore := {}
  now : Timestamp := 0
  /-- The supply of ids and of salts. -/
  nextUuid : ℕ := 0
  calls : List Call := []
  deriving DecidableEq, Repr

namespace AuthState

abbrev tokens (s : AuthState) : List StoredToken := s.store.refreshTokens

/-- Some call has answered with the token. -/
def handedOut (s : AuthState) (token : RefreshToken) : Bool :=
  s.calls.any fun call =>
    match call.stage with
    | .answered (.session answered _ _) => answered = token
    | _ => false

/-- `verifyRefresh`: the service signed the token, and it has not expired. -/
def verifyRefresh (s : AuthState) (token : RefreshToken) : Bool :=
  s.handedOut token && decide (s.now < token.exp)

/-- Store a new token, of the given family or of a new one; the insert can fail. -/
def issueSession (deps : AuthServiceDependencies) (s : AuthState) (userId : Id) (familyId : Option Id) :
    Option (AuthState × RefreshToken × Id) :=
  let token : RefreshToken :=
    { jti := s.nextUuid, sub := userId, exp := s.now + deps.refreshExpiresIn }
  let family := familyId.getD (s.nextUuid + 1)
  let created := s.store.create
    { id := token.jti
      userId
      tokenHash := deps.hashToken token
      familyId := family
      expiresAt := s.now + deps.refreshExpiresIn }
  created.map fun store => ({ s with store, nextUuid := s.nextUuid + 2 }, token, family)

end AuthState

/-- The row a presented token names. -/
def findPresented (deps : AuthServiceDependencies) (s : AuthState) (token : RefreshToken) :
    Option StoredToken :=
  (s.store.findByTokenHash (deps.hashToken token)).filter fun stored =>
    stored.id = token.jti && stored.userId = token.sub

/-- The first query of a call. -/
def AuthRequest.begin (deps : AuthServiceDependencies) (s : AuthState) :
    AuthRequest → AuthState × CallStage
  | .login email password =>
      match s.store.findByEmailForAuth deps email with
      | none => (s, .answered .refused)
      | some record =>
          if ¬deps.bcryptCompare password record.passwordHash then (s, .answered .refused)
          else if record.status ≠ .active then (s, .answered .disabled)
          else (s, .verified record)
  | .refresh token =>
      if ¬s.verifyRefresh token then (s, .answered .invalid)
      else
        match findPresented deps s token with
        | none => (s, .answered .invalid)
        | some stored =>
            if stored.revokedAt.isSome then (s, .ending stored .reuse)
            else if stored.expiresAt ≤ s.now then (s, .answered .expired)
            else (s, .found stored)
  | .logout token =>
      if ¬s.verifyRefresh token then (s, .answered .invalid)
      else
        match findPresented deps s token with
        | none => (s, .answered .invalid)
        | some stored =>
            if stored.revokedAt.isSome then (s, .answered .revoked) else (s, .ending stored .logout)
  | .resetPassword email password =>
      if ¬deps.meetsPolicy password then (s, .answered .refused)
      else
        match s.store.findByEmailForAuth deps email with
        | none => (s, .answered .refused)
        | some record =>
            if record.status ≠ .active then (s, .answered .disabled)
            else
              ({ s with nextUuid := s.nextUuid + 1 },
                .resetting record.id (deps.bcryptHash password s.nextUuid))

/-- The next query of a call. -/
def Call.advance (deps : AuthServiceDependencies) (s : AuthState) (call : Call) :
    AuthState × CallStage :=
  match call.stage with
  | .waiting => call.request.begin deps s
  | .verified record =>
      match s.store.findByIdWithRoles record.id with
      | none => (s, .answered .refused)
      | some _ => (s, .issuing record)
  | .issuing record =>
      match s.issueSession deps record.id none with
      | none => (s, .answered .refused)
      | some (s', token, familyId) =>
          (s', .answered (.session token familyId (some record.passwordHash)))
  | .found stored =>
      if (s.store.findByIdWithRoles stored.userId).any fun user => user.status = .active then
        (s, .rotating stored)
      else (s, .ending stored .disabled)
  | .rotating stored =>
      match s.issueSession deps stored.userId (some stored.familyId) with
      | none => (s, .answered .refused)
      | some (s', token, _) => (s', .claiming stored token)
  | .claiming stored next =>
      let claimed := s.store.claimForRotation stored.id next.jti s.now
      ({ s with store := claimed.2 },
        if claimed.1 then .answered (.session next stored.familyId none) else .undoing stored next)
  | .undoing _ next => ({ s with store := s.store.revoke next.jti s.now }, .answered .invalid)
  | .ending stored reason =>
      ({ s with store := s.store.revokeFamily stored.familyId s.now },
        .answered (reason.answer stored.familyId))
  | .resetting userId passwordHash =>
      ({ s with store := s.store.updatePasswordHash userId passwordHash }, .updated userId)
  | .updated userId =>
      ({ s with store := s.store.revokeAllForUser userId s.now }, .answered .reset)
  | .answered answer => (s, .answered answer)

/-! ## Schedules -/

/-- What can happen next: a call comes in, a call takes its next step, time passes, or an administrator
changes the status of a user. -/
inductive AuthEvent where
  | call (id : ℕ) (request : AuthRequest)
  | step (id : ℕ)
  | wait (milliseconds : ℕ)
  | setStatus (userId : Id) (status : UserStatus)
  deriving DecidableEq, Repr

namespace AuthState

def step (deps : AuthServiceDependencies) (s : AuthState) : AuthEvent → AuthState
  | .call id request =>
      match Table.lookup Call.id id s.calls with
      | none => { s with calls := Table.upsert Call.id { id, request } s.calls }
      | some _ => s
  | .step id =>
      match Table.lookup Call.id id s.calls with
      | none => s
      | some call =>
          let next := call.advance deps s
          { next.1 with calls := Table.upsert Call.id { call with stage := next.2 } s.calls }
  | .wait milliseconds => { s with now := s.now + milliseconds }
  | .setStatus userId status =>
      { s with
        store :=
          { s.store with
            users := updateMany (fun user => user.id = userId) (fun user => { user with status })
              s.store.users } }

abbrev run (deps : AuthServiceDependencies) (s : AuthState) (events : List AuthEvent) : AuthState :=
  Machine.run (step deps) s events

/-- Nobody has logged in yet. -/
structure Fresh (s : AuthState) : Prop where
  tokens : s.tokens = []
  calls : s.calls = []

end AuthState

end DealFlow360.Auth
