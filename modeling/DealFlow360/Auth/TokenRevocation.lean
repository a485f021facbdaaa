import DealFlow360.Lib.Expiring
import DealFlow360.Lib.Machine
import DealFlow360.Types

/-!
# Revoked access tokens

An access token carries the version of its user's access at the time it was
issued. Revoking the user's access writes the next version, and a token with a
lower one is refused. The version is an entry of the key-value store that
outlives every token issued before it was written; but once it has expired the
versions start again from nothing, and two revocations that overlap write the
same version.

`Refuses` is what keeps a token out: it has expired, or its id is denied or a
higher version is stored for as long as it lives. One write of a higher version
makes it true (`refuses_of_write`), every step keeps it as long as revocations
write versions above the token's (`Refuses.step`), and an answer of `verify` is
read off it.

`revocation_final_iff` is exact: in a run, no token issued before a revocation
completes is accepted afterwards, if and only if no revocation completes with a
version that such a token already has. `token_outlives_revocation` is the run
in which an earlier version expires first.
-/

namespace DealFlow360.Auth

/-! ## The store of revocations -/

/-- The keys with the prefixes `auth:deny-jti:` and `auth:access-ver:`. -/
inductive RevocationKey where
  | denyJti (jti : Id)
  | accessVersion (userId : Id)
  deriving DecidableEq, Repr

/-- The claims of an access token that the revocation store looks at. -/
structure AccessToken where
  jti : Id
  sub : Id
  tvn : ℕ
  exp : Timestamp
  deriving DecidableEq, Repr

structure TokenRevocationStore where
  accessTtlMs : ℕ
  kv : List (Expiring.Entry RevocationKey ℕ) := []
  deriving DecidableEq, Repr

namespace TokenRevocationStore

def ttlMs (store : TokenRevocationStore) : ℕ := max 1000 (store.accessTtlMs + 5000)

def denyAccessJti (now : Timestamp) (jti : Id) (store : TokenRevocationStore) : TokenRevocationStore :=
  { store with kv := Expiring.set now (.denyJti jti) 1 store.ttlMs store.kv }

def currentAccessVersion (now : Timestamp) (userId : Id) (store : TokenRevocationStore) : ℕ :=
  (Expiring.get now (.accessVersion userId) store.kv).getD 0

/-- The write of `revokeUserAccess`, after the version was read. -/
def writeAccessVersion (now : Timestamp) (userId : Id) (next : ℕ) (store : TokenRevocationStore) :
    TokenRevocationStore :=
  { store with kv := Expiring.set now (.accessVersion userId) next store.ttlMs store.kv }

def assertAccessAllowed (now : Timestamp) (claims : AccessToken) (store : TokenRevocationStore) :
    Except String Unit :=
  if (Expiring.get now (.denyJti claims.jti) store.kv).isSome then throw "Token has been revoked"
  else if claims.tvn < store.currentAccessVersion now claims.sub then throw "Token has been revoked"
  else pure ()

end TokenRevocationStore

/-! ## Runs -/

/-- A call of `revokeUserAccess` that has read the version. -/
structure Revocation where
  id : ℕ
  userId : Id
  version : ℕ
  deriving DecidableEq, Repr

structure AccessState where
  store : TokenRevocationStore
  now : Timestamp := 0
  nextUuid : ℕ := 0
  issued : List AccessToken := []
  revoking : List Revocation := []
  deriving DecidableEq, Repr

inductive AccessEvent where
  /-- A session is issued with an access token. -/
  | issue (userId : Id)
  /-- `revokeUserAccess` reads the version. -/
  | startRevocation (id : ℕ) (userId : Id)
  /-- `revokeUserAccess` writes the next one. -/
  | finishRevocation (id : ℕ)
  /-- A logout denies the access token it comes with. -/
  | deny (token : AccessToken)
  | wait (milliseconds : ℕ)
  deriving DecidableEq, Repr

namespace AccessState

/-- The token is verified: the service issued it, and it has not expired. -/
def verifyAccess (s : AccessState) (token : AccessToken) : Bool :=
  token ∈ s.issued && decide (s.now < token.exp)

def step (s : AccessState) : AccessEvent → AccessState
  | .issue userId =>
      { s with
        nextUuid := s.nextUuid + 1
        issued := s.issued ++
          [{ jti := s.nextUuid
             sub := userId
             tvn := s.store.currentAccessVersion s.now userId
             exp := s.now + s.store.accessTtlMs }] }
  | .startRevocation id userId =>
      match Table.lookup Revocation.id id s.revoking with
      | some _ => s
      | none =>
          let version := s.store.currentAccessVersion s.now userId
          { s with revoking := Table.upsert Revocation.id { id, userId, version } s.revoking }
  | .finishRevocation id =>
      match Table.lookup Revocation.id id s.revoking with
      | none => s
      | some revocation =>
          { s with
            store := s.store.writeAccessVersion s.now revocation.userId (revocation.version + 1)
            revoking := Table.erase Revocation.id id s.revoking }
  | .deny token =>
      if s.verifyAccess token then { s with store := s.store.denyAccessJti s.now token.jti } else s
  | .wait milliseconds => { s with now := s.now + milliseconds }

abbrev run (s : AccessState) (events : List AccessEvent) : AccessState := Machine.run step s events

/-- Nothing has been issued or revoked yet. -/
structure Fresh (s : AccessState) : Prop where
  kv : s.store.kv = []
  issued : s.issued = []
  revoking : s.revoking = []

/-- A request with the token is let through. -/
def Accepts (s : AccessState) (token : AccessToken) : Prop :=
  s.now < token.exp ∧ s.store.assertAccessAllowed s.now token = .ok ()

/-- The event completes a revocation of the user's access. -/
def Completes (s : AccessState) (userId : Id) : AccessEvent → Prop
  | .finishRevocation id =>
      ∃ revocation ∈ Table.lookup Revocation.id id s.revoking, revocation.userId = userId
  | _ => False

/-- Where the event completes a revocation, it writes a version above that of every token of the user
that is not expired or denied. -/
def Outdates (s : AccessState) : AccessEvent → Prop
  | .finishRevocation id =>
      ∀ revocation ∈ Table.lookup Revocation.id id s.revoking, ∀ token ∈ s.issued,
        token.sub = revocation.userId → s.now < token.exp →
        Expiring.get s.now (.denyJti token.jti) s.store.kv = none → token.tvn ≤ revocation.version
  | _ => True

instance (s : AccessState) (token : AccessToken) : Decidable (s.Accepts token) :=
  inferInstanceAs (Decidable (s.now < token.exp ∧ s.store.assertAccessAllowed s.now token = .ok ()))

instance (s : AccessState) (userId : Id) (event : AccessEvent) : Decidable (s.Completes userId event) := by
  cases event <;> unfold Completes <;> infer_instance

instance (s : AccessState) (event : AccessEvent) : Decidable (s.Outdates event) := by
  cases event <;> unfold Outdates <;> infer_instance

end AccessState

/-! ## What stays refused -/

theorem TokenRevocationStore.accessTtlMs_le_ttlMs (store : TokenRevocationStore) :
    store.accessTtlMs ≤ store.ttlMs := by
  unfold ttlMs
  omega

theorem TokenRevocationStore.ttlMs_pos (store : TokenRevocationStore) : 0 < store.ttlMs := by
  unfold ttlMs
  omega

namespace AccessState

variable {s : AccessState} {token : AccessToken}

/-- The token has expired, or an entry that outlives it has it refused. -/
def Refuses (s : AccessState) (token : AccessToken) : Prop :=
  token.exp ≤ s.now ∨ Expiring.Lasts s.store.kv (.denyJti token.jti) (fun _ => True) token.exp ∨
    Expiring.Lasts s.store.kv (.accessVersion token.sub) (token.tvn < ·) token.exp

theorem Refuses.not_accepts (h : s.Refuses token) : ¬s.Accepts token := by
  rintro ⟨hlive, hallowed⟩
  unfold TokenRevocationStore.assertAccessAllowed at hallowed
  rcases h with hexpired | hdenied | houtdated
  · exact absurd hlive (Nat.not_lt.mpr hexpired)
  · obtain ⟨value, hvalue, -⟩ := hdenied s.now hlive
    rw [hvalue] at hallowed
    cases hallowed
  · obtain ⟨version, hversion, hlt⟩ := houtdated s.now hlive
    split at hallowed
    · cases hallowed
    · rw [if_pos] at hallowed
      · cases hallowed
      · unfold TokenRevocationStore.currentAccessVersion
        rw [hversion]
        exact hlt

/-- What the store says of the tokens that were issued. -/
structure Sound (s : AccessState) : Prop where
  horizon : ∀ token ∈ s.issued, token.exp ≤ s.now + s.store.accessTtlMs
  used : ∀ token ∈ s.issued, token.jti < s.nextUuid
  denyUsed : ∀ jti value, Expiring.get s.now (.denyJti jti) s.store.kv = some value → jti < s.nextUuid
  denied : ∀ token ∈ s.issued, ∀ value,
    Expiring.get s.now (.denyJti token.jti) s.store.kv = some value →
    Expiring.Lasts s.store.kv (.denyJti token.jti) (fun _ => True) token.exp

theorem Sound.horizon_ttl (hs : s.Sound) (htoken : token ∈ s.issued) :
    token.exp ≤ s.now + s.store.ttlMs :=
  (hs.horizon token htoken).trans (Nat.add_le_add_left s.store.accessTtlMs_le_ttlMs _)

/-- Writing a version above the token's refuses it. -/
theorem refuses_of_write (hs : s.Sound) (htoken : token ∈ s.issued) {version : ℕ}
    (hbelow : s.now < token.exp → Expiring.get s.now (.denyJti token.jti) s.store.kv = none →
      token.tvn ≤ version) (revoking : List Revocation) :
    Refuses { s with store := s.store.writeAccessVersion s.now token.sub (version + 1), revoking } token := by
  by_cases hlive : s.now < token.exp
  · cases hdenied : Expiring.get s.now (.denyJti token.jti) s.store.kv with
    | none =>
        refine .inr (.inr (Expiring.lasts_set_self ?_ (hs.horizon_ttl htoken)))
        exact Nat.lt_succ_of_le (hbelow hlive hdenied)
    | some value =>
        exact .inr (.inl (Expiring.lasts_set_of_ne nofun (hs.denied token htoken value hdenied)))
  · exact .inl (Nat.not_lt.mp hlive)

/-- A token that is refused stays so, where revocations write versions above it. -/
theorem Refuses.step (h : s.Refuses token) (hs : s.Sound) (htoken : token ∈ s.issued)
    {event : AccessEvent} (houtdates : s.Outdates event) : (s.step event).Refuses token := by
  cases event with
  | issue userId => exact h
  | startRevocation id userId =>
      unfold AccessState.step
      dsimp only
      split <;> exact h
  | finishRevocation id =>
      unfold AccessState.step
      dsimp only
      split
      · exact h
      · rename_i revocation hfound
        by_cases huser : token.sub = revocation.userId
        · rw [← huser]
          exact refuses_of_write hs htoken (houtdates revocation hfound token htoken huser) _
        · rcases h with hexpired | hdenied | houtdated
          · exact .inl hexpired
          · exact .inr (.inl (Expiring.lasts_set_of_ne nofun hdenied))
          · refine .inr (.inr (Expiring.lasts_set_of_ne ?_ houtdated))
            exact fun heq => huser (RevocationKey.accessVersion.inj heq).symm
  | deny other =>
      unfold AccessState.step
      dsimp only
      split
      · rcases h with hexpired | hdenied | houtdated
        · exact .inl hexpired
        · by_cases hjti : other.jti = token.jti
          · rw [hjti]
            exact .inr (.inl (Expiring.lasts_set_self trivial (hs.horizon_ttl htoken)))
          · refine .inr (.inl (Expiring.lasts_set_of_ne ?_ hdenied))
            exact fun heq => hjti (RevocationKey.denyJti.inj heq)
        · exact .inr (.inr (Expiring.lasts_set_of_ne nofun houtdated))
      · exact h
  | wait milliseconds =>
      rcases h with hexpired | hlasting
      · exact .inl (hexpired.trans (Nat.le_add_right _ _))
      · exact .inr hlasting

/-- A revocation writes under no key of a denied token. -/
theorem get_writeAccessVersion (store : TokenRevocationStore) (now : Timestamp) (userId : Id) (next : ℕ)
    (jti : Id) : Expiring.get now (.denyJti jti) (store.writeAccessVersion now userId next).kv =
      Expiring.get now (.denyJti jti) store.kv :=
  Expiring.get_set_of_ne nofun

theorem Sound.write (hs : s.Sound) (userId : Id) (next : ℕ) (revoking : List Revocation) :
    Sound { s with store := s.store.writeAccessVersion s.now userId next, revoking } where
  horizon := hs.horizon
  used := hs.used
  denyUsed jti value hget :=
    hs.denyUsed jti value ((get_writeAccessVersion s.store s.now userId next jti).symm.trans hget)
  denied token htoken value hget :=
    Expiring.lasts_set_of_ne nofun (hs.denied token htoken value
      ((get_writeAccessVersion s.store s.now userId next token.jti).symm.trans hget))

theorem Sound.deny (hs : s.Sound) (htoken : token ∈ s.issued) :
    Sound { s with store := s.store.denyAccessJti s.now token.jti } where
  horizon := hs.horizon
  used := hs.used
  denyUsed jti value hget := by
    by_cases hjti : token.jti = jti
    · rw [← hjti]
      exact hs.used token htoken
    · refine hs.denyUsed jti value ?_
      rw [← hget]
      exact (Expiring.get_set_of_ne fun heq => hjti (RevocationKey.denyJti.inj heq)).symm
  denied other hother value hget := by
    by_cases hjti : token.jti = other.jti
    · rw [← hjti]
      exact Expiring.lasts_set_self trivial (hs.horizon_ttl hother)
    · have hne : RevocationKey.denyJti token.jti ≠ .denyJti other.jti :=
        fun heq => hjti (RevocationKey.denyJti.inj heq)
      refine Expiring.lasts_set_of_ne hne (hs.denied other hother value ?_)
      rw [← hget]
      exact (Expiring.get_set_of_ne hne).symm

theorem Sound.step (hs : s.Sound) (event : AccessEvent) : (s.step event).Sound := by
  cases event with
  | issue userId =>
      refine ⟨fun token htoken => ?_, fun token htoken => ?_, fun jti value hget => ?_,
        fun token htoken value hget => ?_⟩
      · rcases List.mem_append.mp htoken with hold | hnew
        · exact hs.horizon token hold
        · rw [List.mem_singleton.mp hnew]
          exact le_rfl
      · rcases List.mem_append.mp htoken with hold | hnew
        · exact Nat.lt_succ_of_lt (hs.used token hold)
        · rw [List.mem_singleton.mp hnew]
          exact Nat.lt_succ_self _
      · exact Nat.lt_succ_of_lt (hs.denyUsed jti value hget)
      · rcases List.mem_append.mp htoken with hold | hnew
        · exact hs.denied token hold value hget
        · -- the new token's id is in no entry yet
          rw [List.mem_singleton.mp hnew] at hget
          exact absurd (hs.denyUsed s.nextUuid value hget) (Nat.lt_irrefl _)
  | startRevocation id userId =>
      unfold AccessState.step
      dsimp only
      split
      · exact hs
      · exact ⟨hs.horizon, hs.used, hs.denyUsed, hs.denied⟩
  | finishRevocation id =>
      unfold AccessState.step
      dsimp only
      split
      · exact hs
      · exact hs.write _ _ _
  | deny token =>
      unfold AccessState.step
      dsimp only
      split
      · rename_i hverify
        exact hs.deny (of_decide_eq_true (Bool.and_eq_true_iff.mp hverify).1)
      · exact hs
  | wait milliseconds =>
      refine ⟨fun token htoken => (hs.horizon token htoken).trans ?_, hs.used, fun jti value hget => ?_,
        fun token htoken value hget => ?_⟩
      · exact Nat.add_le_add_right (Nat.le_add_right _ _) _
      · exact hs.denyUsed jti value (Expiring.get_of_later (Nat.le_add_right _ _) hget)
      · exact hs.denied token htoken value (Expiring.get_of_later (Nat.le_add_right _ _) hget)

theorem Fresh.sound (h : s.Fresh) : s.Sound := by
  have hissued {token : AccessToken} (htoken : token ∈ s.issued) : False := by
    rw [h.issued] at htoken
    cases htoken
  refine ⟨fun token htoken => (hissued htoken).elim, fun token htoken => (hissued htoken).elim,
    fun jti value hget => ?_, fun token htoken => (hissued htoken).elim⟩
  rw [h.kv] at hget
  cases hget

theorem mem_issued_step (event : AccessEvent) (htoken : token ∈ s.issued) :
    token ∈ (s.step event).issued := by
  cases event with
  | issue userId => exact List.mem_append_left _ htoken
  | startRevocation id userId =>
      unfold AccessState.step
      dsimp only
      split <;> exact htoken
  | finishRevocation id =>
      unfold AccessState.step
      dsimp only
      split <;> exact htoken
  | deny other =>
      unfold AccessState.step
      dsimp only
      split <;> exact htoken
  | wait milliseconds => exact htoken

/-- A token of the user that was issued before the revocation completes is refused from then on. -/
theorem refuses_of_completes (hs : s.Sound) (htoken : token ∈ s.issued) {event : AccessEvent}
    (hcompletes : s.Completes token.sub event) (houtdates : s.Outdates event) :
    (s.step event).Refuses token := by
  cases event with
  | finishRevocation id =>
      obtain ⟨revocation, hfound, huser⟩ := hcompletes
      unfold AccessState.step
      dsimp only
      rw [Option.mem_def.mp hfound]
      dsimp only
      rw [huser]
      exact refuses_of_write hs htoken (houtdates revocation hfound token htoken huser.symm) _
  | _ => cases hcompletes

/-- A token that the revocation should refuse and that has the written version is accepted. -/
theorem accepts_of_not_outdated {id : ℕ} {revocation : Revocation}
    (hfound : Table.lookup Revocation.id id s.revoking = some revocation)
    (huser : token.sub = revocation.userId) (hlive : s.now < token.exp)
    (hdenied : Expiring.get s.now (.denyJti token.jti) s.store.kv = none)
    (habove : revocation.version < token.tvn) : (s.step (.finishRevocation id)).Accepts token := by
  unfold AccessState.step
  dsimp only
  rw [hfound]
  refine ⟨hlive, ?_⟩
  have hcurrent : (s.store.writeAccessVersion s.now revocation.userId
      (revocation.version + 1)).currentAccessVersion s.now token.sub = revocation.version + 1 := by
    unfold TokenRevocationStore.currentAccessVersion TokenRevocationStore.writeAccessVersion
    dsimp only
    rw [huser, Expiring.get_set_self (Nat.lt_add_of_pos_right s.store.ttlMs_pos)]
    rfl
  unfold TokenRevocationStore.assertAccessAllowed
  dsimp only
  rw [get_writeAccessVersion, hdenied, hcurrent, if_neg (by nofun), if_neg (Nat.not_lt.mpr habove)]
  rfl

end AccessState

/-- In a run, no access token that was issued before a revocation of its user's access completes is
accepted afterwards, if and only if every revocation writes a version above the tokens that it should
refuse. -/
theorem revocation_final_iff (s₀ : AccessState) (hfresh : s₀.Fresh) (events : List AccessEvent) :
    (∀ before event middle after, events = before ++ event :: middle ++ after →
      ∀ token ∈ (s₀.run before).issued, (s₀.run before).Completes token.sub event →
        ¬(s₀.run (before ++ event :: middle)).Accepts token) ↔
      Machine.Meets AccessState.step AccessState.Outdates s₀ events := by
  constructor
  · intro hfinal
    refine Machine.meets_iff.mpr fun first event rest hevents => ?_
    cases event with
    | finishRevocation id =>
        intro revocation hfound token htoken huser hlive hdenied
        by_contra habove
        refine hfinal first (.finishRevocation id) [] rest ?_ token htoken ⟨revocation, hfound, huser.symm⟩ ?_
        · rw [hevents, List.append_assoc, List.singleton_append]
        · rw [AccessState.run, Machine.run_concat]
          exact AccessState.accepts_of_not_outdated hfound huser hlive hdenied (Nat.not_le.mp habove)
    | _ => trivial
  · rintro hmeets before event middle after rfl token htoken hcompletes
    have hsound : (s₀.run before).Sound :=
      Machine.invariant (fun _ event hs => hs.step event) hfresh.sound before
    have hmeets := Machine.meets_append.mp (Machine.meets_append.mp hmeets).1
    obtain ⟨-, houtdates, hmiddle⟩ := hmeets
    rw [AccessState.run, Machine.run_append, Machine.run_cons]
    have hstart := AccessState.refuses_of_completes hsound htoken hcompletes houtdates
    have hlast := Machine.invariant_of_meets
      (I := fun s => s.Sound ∧ token ∈ s.issued ∧ s.Refuses token)
      (fun _ event hs hmeets => ⟨hs.1.step event, AccessState.mem_issued_step event hs.2.1,
        hs.2.2.step hs.1 hs.2.1 hmeets⟩)
      ⟨hsound.step event, AccessState.mem_issued_step event htoken, hstart⟩ hmiddle
    exact hlast.2.2.not_accepts

/-- A service whose access tokens live for fifteen minutes. -/
def freshAccess : AccessState where
  store := { accessTtlMs := 900000 }

theorem freshAccess_fresh : freshAccess.Fresh := ⟨rfl, rfl, rfl⟩

/-- A token issued before the only revocation is refused after it. -/
theorem revocation_final_once :
    ∃ token ∈ (freshAccess.run [.issue 1]).issued,
      ¬(freshAccess.run [.issue 1, .startRevocation 0 1, .finishRevocation 0, .wait 60000]).Accepts
        token := by
  refine ⟨_, List.mem_singleton_self _, ?_⟩
  refine (revocation_final_iff freshAccess freshAccess_fresh
    [.issue 1, .startRevocation 0 1, .finishRevocation 0, .wait 60000]).mpr ?_
    [.issue 1, .startRevocation 0 1] (.finishRevocation 0) [.wait 60000] [] rfl _
    (List.mem_singleton_self _) ⟨_, rfl, rfl⟩
  decide

/-- A token issued shortly before the version of an earlier revocation expires outlives the next one,
which writes the same version again. -/
theorem token_outlives_revocation :
    let before : List AccessEvent :=
      [.startRevocation 0 1, .finishRevocation 0, .wait 904000, .issue 1, .wait 1000, .startRevocation 1 1]
    ∃ token ∈ (freshAccess.run before).issued,
      (freshAccess.run before).Completes token.sub (.finishRevocation 1) ∧
        (freshAccess.run (before ++ [.finishRevocation 1])).Accepts token := by
  decide

end DealFlow360.Auth
