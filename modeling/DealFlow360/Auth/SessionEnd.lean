import DealFlow360.Auth.TokenRotation

/-!
# The end of a session

Logout revokes the family of the presented token, but only where the presented
token is still active: presented with a token that was rotated, it answers the
same and leaves the successor alone.

A password reset writes the new hash and then revokes the tokens of the user. A
login that has read the old hash may store its token after both. Of the
families that logins have opened, each is of the current hash, or its user's
tokens are about to be revoked, or it has ended; the step that stores the first
token of a family is the one that can break this.

The logout half is about a call on its own: `logout_ends_iff` says from which
reachable states the family of the presented token has no active token
afterwards, namely those in which the presented token is itself active, or
nothing of the family is.

The reset half is about every interleaving of login, refresh, logout and reset:

- `hash_kept` and `revoking_kept` say what one query leaves of a hash and of a
  reset under way;
- `Advanced.opened_in_time` is the step that stores the first token of a
  family;
- `reset_ends_sessions` follows by the run rule for inputs that meet a
  condition.

Each half has its failing run: `logout_spares_successor`, and
`login_outlives_reset`.
-/

namespace DealFlow360.Auth

/-! ## A call on its own -/

namespace AuthState

/-- The call of this id has answered so. -/
def Answered (s : AuthState) (id : ℕ) (answer : Answer) : Prop :=
  ∃ call, Table.lookup Call.id id s.calls = some call ∧ call.stage = .answered answer

instance (s : AuthState) (id : ℕ) (answer : Answer) : Decidable (s.Answered id answer) :=
  inferInstanceAs (Decidable (∃ call ∈ Table.lookup Call.id id s.calls, call.stage = .answered answer))

/-- No token of the family is active. -/
def Ended (s : AuthState) (familyId : Id) : Prop :=
  ∀ row ∈ s.tokens, row.familyId = familyId → ¬row.Active

instance (s : AuthState) (familyId : Id) : Decidable (s.Ended familyId) :=
  inferInstanceAs (Decidable (∀ row ∈ s.tokens, row.familyId = familyId → ¬row.Active))

end AuthState

section Alone

variable {s : AuthState} {id : ℕ}

theorem AuthState.Answered.eq {first second : Answer} (h : s.Answered id first)
    (h' : s.Answered id second) : first = second := by
  obtain ⟨call, hlookup, hstage⟩ := h
  obtain ⟨call', hlookup', hstage'⟩ := h'
  rw [hlookup] at hlookup'
  rw [← Option.some.inj hlookup', hstage] at hstage'
  exact CallStage.answered.inj hstage'

theorem step_of_lookup (deps : AuthServiceDependencies) {call : Call}
    (h : Table.lookup Call.id id s.calls = some call) :
    (s.step deps (.step id)).store = (call.advance deps s).1.store ∧
      Table.lookup Call.id id (s.step deps (.step id)).calls =
        some { call with stage := (call.advance deps s).2 } := by
  have hid : call.id = id := Table.key_of_lookup h
  unfold AuthState.step
  dsimp only
  rw [h]
  refine ⟨rfl, ?_⟩
  rw [← hid]
  exact Table.lookup_upsert_self { call with stage := (call.advance deps s).2 : Call } s.calls

/-- A call that has answered changes nothing more. -/
theorem run_answered (deps : AuthServiceDependencies) {answer : Answer} (h : s.Answered id answer) (n : ℕ) :
    (s.run deps (List.replicate n (.step id))).tokens = s.tokens ∧
      (s.run deps (List.replicate n (.step id))).Answered id answer := by
  induction n generalizing s with
  | zero => exact ⟨rfl, h⟩
  | succ n ih =>
      obtain ⟨call, hlookup, hstage⟩ := h
      obtain ⟨hstore, hlookup'⟩ := step_of_lookup deps hlookup
      have hadvance : call.advance deps s = (s, .answered answer) := by
        unfold Call.advance
        rw [hstage]
      rw [hadvance] at hstore hlookup'
      obtain ⟨htokens, hanswered⟩ := ih ⟨_, hlookup', rfl⟩
      refine ⟨?_, hanswered⟩
      rw [List.replicate_succ]
      exact htokens.trans (congrArg AuthStore.refreshTokens hstore)

/-- A call on its own starts from the same rows. -/
theorem run_alone (deps : AuthServiceDependencies) (request : AuthRequest)
    (hfree : Table.lookup Call.id id s.calls = none) :
    ∃ s₁ : AuthState, s₁.store = s.store ∧ Table.lookup Call.id id s₁.calls = some { id, request } ∧
      s.run deps (alone id request) = s₁.run deps (List.replicate 5 (.step id)) := by
  refine ⟨s.step deps (.call id request), ?_, ?_, rfl⟩
  · unfold AuthState.step
    dsimp only
    rw [hfree]
  · unfold AuthState.step
    dsimp only
    rw [hfree]
    exact Table.lookup_upsert_self { id, request : Call } s.calls

/-! ## Logout -/

/-- What the first query of a logout finds. -/
theorem logout_begin (deps : AuthServiceDependencies) (s : AuthState) (token : RefreshToken) :
    (AuthRequest.logout token).begin deps s = (s, .answered .invalid) ∨
      ∃ stored ∈ s.tokens, stored.id = token.jti ∧
        (¬stored.Active ∧ (AuthRequest.logout token).begin deps s = (s, .answered .revoked) ∨
          stored.Active ∧ (AuthRequest.logout token).begin deps s = (s, .ending stored .logout)) := by
  dsimp only [AuthRequest.begin]
  split
  · exact .inl rfl
  · split
    · exact .inl rfl
    · rename_i stored hfound
      obtain ⟨hmem, hid⟩ := findPresented_eq_some hfound
      refine .inr ⟨stored, hmem, hid, ?_⟩
      split
      · rename_i hrevoked
        exact .inl ⟨Option.isSome_iff_ne_none.mp hrevoked, rfl⟩
      · rename_i hnot
        exact .inr ⟨Option.not_isSome_iff_eq_none.mp hnot, rfl⟩

theorem revokeFamily_ends {store : AuthStore} {familyId : Id} {now : Timestamp} {row : StoredToken}
    (hrow : row ∈ (store.revokeFamily familyId now).refreshTokens) (hfamily : row.familyId = familyId) :
    ¬row.Active := by
  have hmarks : Marks fun row : StoredToken => { row with revokedAt := some now } :=
    ⟨fun _ => rfl, fun _ => rfl, fun _ => rfl, fun _ h => by cases h⟩
  refine hmarks.none_active (fun _ _ hsame hthis => hsame.familyId.symm.trans hthis) (fun row => ?_) hrow
    hfamily
  simp only [Bool.and_eq_true, decide_eq_true_eq, Option.isNone_iff_eq_none]

/-- A logout on its own: it refuses, finds the token revoked and writes nothing, or revokes the family of
the token. -/
theorem logout_alone (deps : AuthServiceDependencies) (hfree : Table.lookup Call.id id s.calls = none)
    (token : RefreshToken) :
    let s' := s.run deps (alone id (.logout token))
    s'.Answered id .invalid ∨
      ∃ stored ∈ s.tokens, stored.id = token.jti ∧
        (¬stored.Active ∧ s'.tokens = s.tokens ∨ stored.Active ∧ s'.Ended stored.familyId) := by
  intro s'
  obtain ⟨s₁, hstore, hlookup, hrun⟩ := run_alone deps (.logout token) hfree
  have hs' : s' = s₁.run deps (List.replicate 5 (.step id)) := hrun
  obtain ⟨hstore₁, hlookup₁⟩ := step_of_lookup deps hlookup
  have hbegin : Call.advance deps s₁ { id, request := .logout token } =
      (AuthRequest.logout token).begin deps s₁ := rfl
  rw [hbegin] at hstore₁ hlookup₁
  rcases logout_begin deps s₁ token with hinvalid | ⟨stored, hmem, hid, hfound⟩
  · rw [hinvalid] at hlookup₁
    rw [hs', List.replicate_succ]
    exact .inl (run_answered deps ⟨_, hlookup₁, rfl⟩ 4).2
  · rw [AuthState.tokens, hstore] at hmem
    refine .inr ⟨stored, hmem, hid, ?_⟩
    rcases hfound with ⟨hrevoked, hanswer⟩ | ⟨hactive, hending⟩
    · rw [hanswer] at hstore₁ hlookup₁
      refine .inl ⟨hrevoked, ?_⟩
      rw [hs', List.replicate_succ]
      refine (run_answered deps ⟨_, hlookup₁, rfl⟩ 4).1.trans ?_
      exact congrArg AuthStore.refreshTokens (hstore₁.trans hstore)
    · rw [hending] at hlookup₁
      obtain ⟨hstore₂, hlookup₂⟩ := step_of_lookup deps hlookup₁
      refine .inr ⟨hactive, fun row hrow hfamily => ?_⟩
      rw [hs', List.replicate_succ, List.replicate_succ] at hrow
      have htokens := (run_answered deps ⟨_, hlookup₂, rfl⟩ 3).1
      rw [AuthState.run, Machine.run_cons, Machine.run_cons, htokens, AuthState.tokens, hstore₂] at hrow
      exact revokeFamily_ends hrow hfamily

end Alone

/-- A logout that answers `revoked` has ended the session of the presented token if and only if the token
was active, or nothing of its family was. -/
theorem logout_ends_iff (deps : AuthServiceDependencies) (s₀ : AuthState) (hfresh : s₀.Fresh)
    (events : List AuthEvent) (id : ℕ) (token : RefreshToken) (stored : StoredToken) :
    let s := s₀.run deps events
    let s' := s.run deps (alone id (.logout token))
    Table.lookup Call.id id s.calls = none → s'.Answered id .revoked →
      stored ∈ s.tokens → stored.id = token.jti →
      (s'.Ended stored.familyId ↔ stored.Active ∨ s.Ended stored.familyId) := by
  intro s s' hfree hrevoked hstored hid
  have hs : s.Rotates := hfresh.rotates.run deps events
  rcases logout_alone deps hfree token with hinvalid | ⟨found, hfound, hfoundId, hwritten⟩
  · cases hinvalid.eq hrevoked
  · obtain rfl := hs.sound.eq_of_id hfound hstored (hfoundId.trans hid.symm)
    rcases hwritten with ⟨hspent, htokens⟩ | ⟨hactive, hended⟩
    · unfold AuthState.Ended
      rw [htokens, or_iff_right hspent]
    · exact iff_of_true hended (.inl hactive)

/-- The first token of the session that the small deployment's user opens. -/
def firstToken : RefreshToken := { jti := 2, sub := 1, exp := 1000 }

/-- A login, and a refresh with the token it answered. -/
def refreshedOnce : List AuthEvent :=
  alone 0 (.login "ada@example.com" "correct horse") ++ alone 1 (.refresh firstToken)

/-- Logout with the token that the login answered. -/
theorem logout_ends_current :
    let s := startState.run plainDependencies (alone 0 (.login "ada@example.com" "correct horse"))
    let s' := s.run plainDependencies (alone 1 (.logout firstToken))
    s'.Answered 1 .revoked ∧ ∃ stored ∈ s.tokens, stored.id = firstToken.jti ∧
      s'.Ended stored.familyId := by
  intro s s'
  have hrevoked : s'.Answered 1 .revoked := by decide +kernel
  obtain ⟨stored, hstored, hid, hactive⟩ :
      ∃ stored ∈ s.tokens, stored.id = firstToken.jti ∧ stored.Active := by decide +kernel
  have hends := logout_ends_iff plainDependencies startState startState_fresh
    (alone 0 (.login "ada@example.com" "correct horse")) 1 firstToken stored (by decide) hrevoked
    hstored hid
  exact ⟨hrevoked, stored, hstored, hid, hends.mpr (.inl hactive)⟩

/-- Logout with the rotated token answers `revoked`, and its successor is still active. -/
theorem logout_spares_successor :
    let s := startState.run plainDependencies refreshedOnce
    let s' := s.run plainDependencies (alone 2 (.logout firstToken))
    s'.Answered 2 .revoked ∧ ∃ stored ∈ s.tokens, stored.id = firstToken.jti ∧
      ∃ row ∈ s'.tokens, row.familyId = stored.familyId ∧ row.Active := by
  decide +kernel

/-! ## Password reset -/

/-- The user whose first token the login stores next. -/
def CallStage.issues : CallStage → Option User
  | issuing record => some record
  | _ => none

namespace AuthState

def hashOf (s : AuthState) (userId : Id) : Option String :=
  (s.store.findByIdWithRoles userId).map User.passwordHash

/-- A reset has written the user's hash and revokes the user's tokens next. -/
def Revoking (s : AuthState) (userId : Id) : Prop :=
  ∃ call ∈ s.calls, call.stage = .updated userId

/-- A login stores its token while the hash it has verified is the user's, or before the reset that
replaced it revokes the user's tokens. -/
def InTime (s : AuthState) : AuthEvent → Prop
  | .step id => ∀ call ∈ Table.lookup Call.id id s.calls, ∀ record ∈ call.stage.issues,
      s.hashOf record.id = some record.passwordHash ∨ s.Revoking record.id
  | _ => True

instance (s : AuthState) (userId : Id) : Decidable (s.Revoking userId) :=
  inferInstanceAs (Decidable (∃ call ∈ s.calls, call.stage = .updated userId))

instance (s : AuthState) (event : AuthEvent) : Decidable (s.InTime event) := by
  cases event <;> unfold InTime <;> infer_instance

end AuthState

section Reset

variable {deps : AuthServiceDependencies} {s : AuthState}

theorem lookup_updateMany {α κ : Type} [DecidableEq κ] {key : α → κ} {p : α → Bool} {f : α → α}
    (hf : ∀ row, key (f row) = key row) (k : κ) (rows : List α) :
    Table.lookup key k (updateMany p f rows) =
      (Table.lookup key k rows).map fun row => if p row then f row else row := by
  unfold Table.lookup updateMany
  rw [List.find?_map]
  congr 1
  refine congrArg (List.find? · rows) (funext fun row => ?_)
  dsimp only [Function.comp]
  split
  · rw [hf row]
  · rfl

/-- The first query of a call writes nothing. -/
theorem begin_store (deps : AuthServiceDependencies) (s : AuthState) (request : AuthRequest) :
    (request.begin deps s).1.store = s.store := by
  cases request with
  | login email password =>
      dsimp only [AuthRequest.begin]
      split
      · rfl
      · split
        · rfl
        · split <;> rfl
  | refresh token =>
      dsimp only [AuthRequest.begin]
      split
      · rfl
      · split
        · rfl
        · split
          · rfl
          · split <;> rfl
  | logout token =>
      dsimp only [AuthRequest.begin]
      split
      · rfl
      · split
        · rfl
        · split <;> rfl
  | resetPassword email password =>
      dsimp only [AuthRequest.begin]
      split
      · rfl
      · split
        · rfl
        · split <;> rfl

theorem issueSession_users {s' : AuthState} {userId : Id} {familyId : Option Id} {token : RefreshToken}
    {family : Id} (h : s.issueSession deps userId familyId = some (s', token, family)) :
    s'.store.users = s.store.users := by
  unfold AuthState.issueSession AuthStore.create at h
  obtain ⟨store, hstore, hissued⟩ := Option.map_eq_some_iff.mp h
  split at hstore
  · cases hstore
  · obtain rfl := Option.some.inj hstore
    obtain rfl := (Prod.mk.inj hissued).1
    rfl

/-- A query writes no user, unless it is the one that writes the hash of a reset. -/
theorem advance_users (deps : AuthServiceDependencies) (s : AuthState) (call : Call) :
    (call.advance deps s).1.store.users = s.store.users ∨
      ∃ userId passwordHash, call.advance deps s =
        ({ s with store := s.store.updatePasswordHash userId passwordHash }, .updated userId) := by
  unfold Call.advance
  cases call.stage with
  | waiting => exact .inl (congrArg AuthStore.users (begin_store deps s call.request))
  | verified record =>
      dsimp only
      split <;> exact .inl rfl
  | issuing record =>
      dsimp only
      split
      · exact .inl rfl
      · rename_i hissued
        exact .inl (issueSession_users hissued)
  | found stored =>
      dsimp only
      split <;> exact .inl rfl
  | rotating stored =>
      dsimp only
      split
      · exact .inl rfl
      · rename_i hissued
        exact .inl (issueSession_users hissued)
  | resetting userId passwordHash => exact .inr ⟨userId, passwordHash, rfl⟩
  | _ => exact .inl rfl

/-- The hash of a user changes only to have the user's tokens revoked. -/
theorem hash_kept (deps : AuthServiceDependencies) (s : AuthState) (event : AuthEvent) (userId : Id) :
    (s.step deps event).hashOf userId = s.hashOf userId ∨ (s.step deps event).Revoking userId := by
  have hsame {s' : AuthState} (husers : s'.store.users = s.store.users) :
      s'.hashOf userId = s.hashOf userId := by
    unfold AuthState.hashOf AuthStore.findByIdWithRoles
    rw [husers]
  cases event with
  | call id request =>
      unfold AuthState.step
      dsimp only
      split <;> exact .inl (hsame rfl)
  | step id =>
      unfold AuthState.step
      dsimp only
      split
      · exact .inl rfl
      · rename_i call hcall
        rcases advance_users deps s call with husers | ⟨other, passwordHash, hadvance⟩
        · exact .inl (hsame husers)
        · rw [hadvance]
          by_cases hother : other = userId
          · refine .inr ⟨_, Table.mem_upsert_self .., ?_⟩
            rw [hother]
          · left
            unfold AuthState.hashOf AuthStore.findByIdWithRoles AuthStore.updatePasswordHash
            dsimp only
            rw [lookup_updateMany fun user => by rfl]
            cases hfound : Table.lookup User.id userId s.store.users with
            | none => rfl
            | some user =>
                have hid : user.id = userId := Table.key_of_lookup hfound
                rw [Option.map_some, if_neg]
                rw [hid, decide_eq_true_eq]
                exact fun h => hother h.symm
  | wait milliseconds => exact .inl rfl
  | setStatus other status =>
      left
      unfold AuthState.hashOf AuthStore.findByIdWithRoles AuthState.step
      dsimp only
      rw [lookup_updateMany fun user => by rfl, Option.map_map]
      refine congrArg (Option.map · _) (funext fun user => ?_)
      dsimp only [Function.comp]
      split <;> rfl

/-- A reset that has written the hash still has to revoke the tokens, or has just done so. -/
theorem revoking_kept (deps : AuthServiceDependencies) (hs : s.Indexed) (event : AuthEvent) {userId : Id}
    (h : s.Revoking userId) :
    (s.step deps event).Revoking userId ∨
      ∀ row ∈ (s.step deps event).tokens, row.userId = userId → ¬row.Active := by
  obtain ⟨owner, howner, hstage⟩ := h
  cases event with
  | call id request =>
      unfold AuthState.step
      dsimp only
      split
      · rename_i hfree
        exact .inl ⟨owner, Table.mem_upsert_of_ne howner (Table.lookup_eq_none.mp hfree owner howner), hstage⟩
      · exact .inl ⟨owner, howner, hstage⟩
  | step id =>
      unfold AuthState.step
      dsimp only
      split
      · exact .inl ⟨owner, howner, hstage⟩
      · rename_i call hcall
        by_cases hid : owner.id = call.id
        · have hfound := Table.lookup_of_mem hs.calls howner
          rw [hid, Table.lookup_of_mem hs.calls (Table.mem_of_lookup hcall)] at hfound
          obtain rfl := Option.some.inj hfound
          have hadvance : call.advance deps s =
              ({ s with store := s.store.revokeAllForUser userId s.now }, .answered .reset) := by
            unfold Call.advance
            rw [hstage]
          rw [hadvance]
          right
          intro row hrow huser
          have hmarks : Marks fun row : StoredToken => { row with revokedAt := some s.now } :=
            ⟨fun _ => rfl, fun _ => rfl, fun _ => rfl, fun _ h => by cases h⟩
          refine hmarks.none_active (fun _ _ hsame hthis => hsame.userId.symm.trans hthis) (fun row => ?_)
            hrow huser
          simp only [Bool.and_eq_true, decide_eq_true_eq, Option.isNone_iff_eq_none]
        · exact .inl ⟨owner, Table.mem_upsert_of_ne howner hid, hstage⟩
  | wait milliseconds => exact .inl ⟨owner, howner, hstage⟩
  | setStatus other status => exact .inl ⟨owner, howner, hstage⟩

/-- The hash is the user's, or a reset has replaced it and revokes the user's tokens next, or has just
revoked them. -/
def AuthState.Covers (s : AuthState) (userId : Id) (verified : String) : Prop :=
  s.hashOf userId = some verified ∨ s.Revoking userId ∨
    ∀ row ∈ s.tokens, row.userId = userId → ¬row.Active

theorem covers_step (deps : AuthServiceDependencies) (hs : s.Indexed) (event : AuthEvent) {userId : Id}
    {verified : String} (h : s.hashOf userId = some verified ∨ s.Revoking userId) :
    (s.step deps event).Covers userId verified := by
  rcases h with hcurrent | hrevoking
  · rcases hash_kept deps s event userId with hsame | hrevoking
    · exact .inl (hsame.trans hcurrent)
    · exact .inr (.inl hrevoking)
  · exact .inr (revoking_kept deps hs event hrevoking)

/-- All tokens of a family are the same user's. -/
theorem Written.owner {call : Call} {tokens' : List StoredToken} {next' : ℕ}
    (h : Written s call tokens' next') (hs : s.Sound) (hcall : call ∈ s.calls) {familyId userId : Id}
    (hused : familyId < s.nextUuid) (hall : ∀ row ∈ s.tokens, row.familyId = familyId → row.userId = userId) :
    ∀ row ∈ tokens', row.familyId = familyId → row.userId = userId := by
  intro row' hrow' hfamily'
  cases h with
  | same htokens hnext =>
      rw [htokens] at hrow'
      exact hall row' hrow' hfamily'
  | @added row hid hfamily hnext htokens =>
      rw [htokens, List.mem_append, List.mem_singleton] at hrow'
      rcases hrow' with hrow' | rfl
      · exact hall row' hrow' hfamily'
      · rcases hfamily with hnew | ⟨stored, hstored, hsame, huser⟩
        · rw [← hfamily', hnew] at hused
          exact absurd hused Nat.not_succ_lt_self
        · obtain ⟨-, -, old, hold, hdescends⟩ := hs.presented call hcall stored hstored
          rw [huser, ← hdescends.userId]
          exact hall old hold (hdescends.familyId.trans (hsame.symm.trans hfamily'))
  | @marked p f hf hnext htokens =>
      rw [htokens] at hrow'
      obtain ⟨row, hrow, rfl⟩ := mem_updateMany.mp hrow'
      have hdescends := hf.descends p row
      rw [hdescends.userId]
      exact hall row hrow (hdescends.familyId.symm.trans hfamily')

/-- What holds of a family that a login has opened. -/
structure AuthState.Opened (s : AuthState) (token : RefreshToken) (familyId : Id) (verified : String) :
    Prop where
  used : familyId < s.nextUuid
  owner : ∀ row ∈ s.tokens, row.familyId = familyId → row.userId = token.sub
  current : s.hashOf token.sub = some verified ∨ s.Revoking token.sub ∨ s.Dead familyId

theorem AuthState.Covers.opened {token : RefreshToken} {familyId : Id} {verified : String}
    (h : s.Covers token.sub verified) (hused : familyId < s.nextUuid)
    (howner : ∀ row ∈ s.tokens, row.familyId = familyId → row.userId = token.sub) :
    s.Opened token familyId verified := by
  refine ⟨hused, howner, ?_⟩
  rcases h with hcurrent | hrevoking | hnone
  · exact .inl hcurrent
  · exact .inr (.inl hrevoking)
  · exact .inr (.inr (AuthState.dead_of_none hused fun row hrow hfamily =>
      hnone row hrow (howner row hrow hfamily)))

/-- The families that logins have opened. -/
def AuthState.LoginsHold (s : AuthState) : Prop :=
  ∀ call ∈ s.calls, ∀ token familyId verified,
    call.stage = .answered (.session token familyId (some verified)) → s.Opened token familyId verified

theorem AuthState.Opened.step {token : RefreshToken} {familyId : Id} {verified : String}
    (h : s.Opened token familyId verified) (hs : s.Sound) (deps : AuthServiceDependencies)
    (event : AuthEvent) : (s.step deps event).Opened token familyId verified := by
  have hturn := turn deps s event
  have howner : ∀ row ∈ (s.step deps event).tokens, row.familyId = familyId → row.userId = token.sub := by
    cases hturn with
    | still htokens hnext hcalls =>
        rw [htokens]
        exact h.owner
    | arrived hnew hstage htokens hnext hcalls =>
        rw [htokens]
        exact h.owner
    | advanced hmem hadvanced hcalls => exact hadvanced.written.owner hs hmem h.used h.owner
  have hused := h.used.trans_le hturn.nextUuid
  rcases or_assoc.mpr h.current with hcovered | hdead
  · exact (covers_step deps hs.toIndexed event hcovered).opened hused howner
  · exact ⟨hused, howner, .inr (.inr (hdead.turn hs hturn))⟩

/-- A login that stores its token in time opens a family of which this holds. -/
theorem Advanced.opened_in_time {call : Call} {s' : AuthState} {stage : CallStage}
    (h : Advanced s call s'.tokens s'.nextUuid stage) (hs : s.Sound)
    (hintime : ∀ record, call.stage.issues = some record → s'.Covers record.id record.passwordHash)
    {token : RefreshToken} {familyId : Id} {verified : String}
    (hanswer : stage = .answered (.session token familyId (some verified))) :
    call.stage = .answered (.session token familyId (some verified)) ∨
      s'.Opened token familyId verified := by
  cases h with
  | kept htokens hnext hpresented hrecord hsuccessor hplain =>
      rcases hplain _ hanswer with hbefore | hplain
      · exact .inl hbefore
      · exact absurd rfl (hplain.1 token familyId (some verified))
  | @opened record row given hstage hsub hrow hid huser hfamily hnext htokens =>
      cases hanswer
      have hcovers := hintime record (by rw [hstage]; rfl)
      rw [← hsub] at hcovers
      refine .inr (hcovers.opened ?_ fun other hother hsame => ?_)
      · rw [hnext]
        exact Nat.lt_succ_self _
      · rw [htokens, List.mem_append, List.mem_singleton] at hother
        rcases hother with hold | rfl
        · have hlt := (hs.fresh other hold).2
          rw [hsame] at hlt
          exact absurd hlt Nat.not_succ_lt_self
        · exact huser.trans hsub.symm
  | claimed hstage => cases hanswer
  | @ended stored reason => cases reason <;> cases hanswer
  | _ => cases hanswer

theorem AuthState.LoginsHold.step (h : s.LoginsHold) (hs : s.Sound) (deps : AuthServiceDependencies)
    {event : AuthEvent} (hintime : s.InTime event) : (s.step deps event).LoginsHold := by
  intro call' hcall' token familyId verified hanswer
  have hold {call : Call} (hcall : call ∈ s.calls)
      (hbefore : call.stage = .answered (.session token familyId (some verified))) :
      (s.step deps event).Opened token familyId verified :=
    (h call hcall token familyId verified hbefore).step hs deps event
  cases event with
  | call id request =>
      unfold AuthState.step at hcall'
      dsimp only at hcall'
      split at hcall'
      · rcases Table.mem_upsert hcall' with rfl | hcall'
        · cases hanswer
        · exact hold hcall' hanswer
      · exact hold hcall' hanswer
  | step id =>
      cases hfound : Table.lookup Call.id id s.calls with
      | none =>
          unfold AuthState.step at hcall'
          dsimp only at hcall'
          rw [hfound] at hcall'
          exact hold hcall' hanswer
      | some call =>
          have hmem := Table.mem_of_lookup hfound
          have hstep : s.step deps (.step id) = { (call.advance deps s).1 with
              calls := Table.upsert Call.id { call with stage := (call.advance deps s).2 } s.calls } := by
            unfold AuthState.step
            dsimp only
            rw [hfound]
          have hadvanced : Advanced s call (s.step deps (.step id)).tokens
              (s.step deps (.step id)).nextUuid (call.advance deps s).2 := by
            rw [hstep]
            exact advanced deps s call
          rw [hstep] at hcall'
          rcases Table.mem_upsert hcall' with rfl | hcall'
          · have hcovers (record : User) (hrecord : call.stage.issues = some record) :
                (s.step deps (.step id)).Covers record.id record.passwordHash :=
              covers_step deps hs.toIndexed _ (hintime call hfound record hrecord)
            rcases hadvanced.opened_in_time hs hcovers hanswer with hbefore | hopened
            · exact hold hmem hbefore
            · exact hopened
          · exact hold hcall' hanswer
  | wait milliseconds => exact hold hcall' hanswer
  | setStatus userId status => exact hold hcall' hanswer

end Reset

/-- Where every login stores its token in time, a state with no call in progress has no active token
that descends from a login that verified another password hash than the user's. -/
theorem reset_ends_sessions (deps : AuthServiceDependencies) (s₀ : AuthState) (hfresh : s₀.Fresh)
    (events : List AuthEvent)
    (hintime : Machine.Meets (AuthState.step deps) AuthState.InTime s₀ events) :
    let s := s₀.run deps events
    (∀ call ∈ s.calls, call.stage.finished = true) →
      ∀ call ∈ s.calls, ∀ token familyId verified,
        call.stage = .answered (.session token familyId (some verified)) →
        s.hashOf token.sub ≠ some verified → s.Ended familyId := by
  intro s hidle call hcall token familyId verified hanswer hother row hrow hfamily hactive
  have hstart : s₀.LoginsHold := by
    intro call hcall
    rw [hfresh.calls] at hcall
    cases hcall
  obtain ⟨hrotates, hlogins⟩ : s.Rotates ∧ s.LoginsHold :=
    Machine.invariant_of_meets (I := fun s => s.Rotates ∧ s.LoginsHold)
      (fun _ event hs hmeets =>
        ⟨hs.1.step deps event, hs.2.step hs.1.sound deps hmeets⟩)
      ⟨hfresh.rotates, hstart⟩ hintime
  rcases (hlogins call hcall token familyId verified hanswer).current with
    hcurrent | ⟨owner, howner, hstage⟩ | hdead
  · exact hother hcurrent
  · have hfinished := hidle owner howner
    rw [hstage] at hfinished
    cases hfinished
  · obtain ⟨owner, howner, next, hnext, -⟩ := hdead.2 row hrow hfamily hactive
    rw [CallStage.successor_of_finished (hidle owner howner)] at hnext
    cases hnext

/-- A login, then a reset of the password. -/
def resetAfterLogin : List AuthEvent :=
  alone 0 (.login "ada@example.com" "correct horse") ++
    alone 1 (.resetPassword "ada@example.com" "battery staple")

/-- A login that has verified the old password when the reset comes in, and stores its token after it. -/
def resetDuringLogin : List AuthEvent :=
  [.call 0 (.login "ada@example.com" "correct horse"), .step 0, .step 0] ++
    alone 1 (.resetPassword "ada@example.com" "battery staple") ++ [.step 0]

/-- The reset ends the session that was open. -/
theorem reset_ends_earlier_login :
    let s := startState.run plainDependencies resetAfterLogin
    (∃ row ∈ s.tokens, row.familyId = 3) ∧ s.Ended 3 := by
  intro s
  refine ⟨by decide +kernel, ?_⟩
  refine reset_ends_sessions plainDependencies startState startState_fresh resetAfterLogin
    (by decide +kernel) (by decide +kernel)
    { id := 0, request := .login "ada@example.com" "correct horse",
      stage := .answered (.session firstToken 3 (some "0$correct horse")) }
    (by decide +kernel) firstToken 3 "0$correct horse" rfl (by decide +kernel)

/-- The session of the login that verified the old password is usable after the reset. -/
theorem login_outlives_reset :
    let s := startState.run plainDependencies resetDuringLogin
    let token : RefreshToken := { jti := 3, sub := 1, exp := 1000 }
    (∀ call ∈ s.calls, call.stage.finished = true) ∧
      (∃ call ∈ s.calls, call.stage = .answered .reset) ∧
      ∃ call ∈ s.calls, ∃ row ∈ s.tokens,
        call.stage = .answered (.session token row.familyId (some "0$correct horse")) ∧
        s.hashOf token.sub ≠ some "0$correct horse" ∧ row.Active := by
  decide +kernel

end DealFlow360.Auth
