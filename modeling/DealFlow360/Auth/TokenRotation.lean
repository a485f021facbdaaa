import DealFlow360.Auth.RefreshTokens

/-!
# Refresh tokens under every schedule

A refresh stores the successor before it claims the presented token. Until the
claim the successor is pending: it is active, but nobody has it. The invariant
is about the other tokens: of these a family has at most one active, and none
once it has ended. What is claimed is never pending, because it was handed out.

What one query does is said once, as `Advanced`, and every part of the
invariant is kept by its cases:

- what a call holds is what the rows say it was handed;
- a family has at most one active token that is not pending;
- a family that has ended stays so, since nothing makes a token of it active
  again;
- a claim is granted once, so a token is exchanged by one call.

A turn is a query with the schedule's choice; `Turn` lifts the facts, and the
run lemma is an induction on the schedule. `rotation_safe` has the three
statements about every schedule, with no condition on it: a call that crashes
simply takes no more steps.
-/

namespace DealFlow360.Auth

/-! ## Rewriting rows -/

section Rows

variable {α : Type} {p : α → Bool} {f : α → α} {rows : List α}

theorem mem_updateMany {row' : α} :
    row' ∈ updateMany p f rows ↔ ∃ row ∈ rows, (if p row then f row else row) = row' :=
  List.mem_map

theorem distinct_updateMany {κ : Type} {key : α → κ} (hf : ∀ row, key (f row) = key row)
    (h : Table.Distinct key rows) : Table.Distinct key (updateMany p f rows) := by
  have hkeys : (updateMany p f rows).map key = rows.map key := by
    unfold updateMany
    rw [List.map_map]
    refine List.map_congr_left fun row _ => ?_
    show key (if p row then f row else row) = key row
    split
    · exact hf row
    · rfl
  unfold Table.Distinct
  rw [hkeys]
  exact h

/-- Rewriting marks rows as revoked and leaves their ids and families alone. -/
structure Marks (f : StoredToken → StoredToken) : Prop where
  id : ∀ row, (f row).id = row.id
  userId : ∀ row, (f row).userId = row.userId
  familyId : ∀ row, (f row).familyId = row.familyId
  revoked : ∀ row, ¬(f row).Active

/-- What a later table says of a row. -/
structure Descends (row row' : StoredToken) : Prop where
  id : row'.id = row.id
  userId : row'.userId = row.userId
  familyId : row'.familyId = row.familyId
  active : row'.Active → row.Active

theorem Descends.refl (row : StoredToken) : Descends row row := ⟨rfl, rfl, rfl, fun h => h⟩

theorem Descends.trans {row row' row'' : StoredToken} (h : Descends row row')
    (h' : Descends row' row'') : Descends row row'' where
  id := h'.id.trans h.id
  userId := h'.userId.trans h.userId
  familyId := h'.familyId.trans h.familyId
  active hactive := h.active (h'.active hactive)

theorem Marks.descends {f : StoredToken → StoredToken} (hf : Marks f) (p : StoredToken → Bool)
    (row : StoredToken) : Descends row (if p row then f row else row) := by
  split
  · exact ⟨hf.id row, hf.userId row, hf.familyId row, fun h => absurd h (hf.revoked row)⟩
  · exact .refl row

/-- A marked row is not active any more. -/
theorem Marks.not_active {f : StoredToken → StoredToken} (hf : Marks f) {p : StoredToken → Bool}
    {row : StoredToken} (hp : p row = true) : ¬(if p row then f row else row).Active := by
  rw [if_pos hp]
  exact hf.revoked row

/-- Marking every active row of a kind leaves none of that kind active. -/
theorem Marks.none_active {f : StoredToken → StoredToken} (hf : Marks f) {p : StoredToken → Bool}
    {Kind : StoredToken → Prop} (hkind : ∀ row row', Descends row row' → Kind row' → Kind row)
    (hp : ∀ row, p row = true ↔ Kind row ∧ row.Active) {rows : List StoredToken} {row' : StoredToken}
    (hrow' : row' ∈ updateMany p f rows) (hrowKind : Kind row') : ¬row'.Active := by
  intro hactive
  obtain ⟨row, hrow, rfl⟩ := mem_updateMany.mp hrow'
  have hdescends := hf.descends p row
  have hmarked := (hp row).mpr ⟨hkind _ _ hdescends hrowKind, hdescends.active hactive⟩
  exact hf.not_active hmarked hactive

end Rows

/-! ## What a call holds -/

/-- The row of the presented token, once it was found. -/
def CallStage.presented : CallStage → Option StoredToken
  | found stored | rotating stored | claiming stored _ | undoing stored _ => some stored
  | ending stored _ => some stored
  | _ => none

/-- The successor that is stored and not yet settled. -/
def CallStage.successor : CallStage → Option RefreshToken
  | claiming _ next | undoing _ next => some next
  | _ => none

/-- The user record a login has verified and issues no token for yet. -/
def CallStage.record : CallStage → Option User
  | verified record | issuing record => some record
  | _ => none

/-- The call presents the token of this id. -/
def AuthRequest.Presents (request : AuthRequest) (id : Id) : Prop :=
  ∃ token, (request = .refresh token ∨ request = .logout token) ∧ token.jti = id

namespace AuthState

/-- The token is the successor some call has stored and not settled. -/
def Pending (s : AuthState) (id : Id) : Prop :=
  ∃ call ∈ s.calls, ∃ next, call.stage.successor = some next ∧ next.jti = id

/-- The token is stored, and no call's pending successor. -/
def Settled (s : AuthState) (id : Id) : Prop :=
  (∃ row ∈ s.tokens, row.id = id) ∧ ¬s.Pending id

/-- Whatever is active of the family is pending. -/
def Dead (s : AuthState) (familyId : Id) : Prop :=
  familyId < s.nextUuid ∧ ∀ row ∈ s.tokens, row.familyId = familyId → row.Active → s.Pending row.id

end AuthState

/-- An answer that neither hands out a token nor reports a reuse. -/
def Answer.Plain (answer : Answer) : Prop :=
  (∀ token familyId verified, answer ≠ .session token familyId verified) ∧
    ∀ familyId, answer ≠ .reuse familyId

/-- The stored row `stored` was found for the token that the call presents. -/
structure Found (s : AuthState) (call : Call) (stored : StoredToken) : Prop where
  mem : stored ∈ s.tokens
  presents : ∃ token, (call.request = .refresh token ∨ call.request = .logout token) ∧
    token.jti = stored.id ∧ s.handedOut token = true

/-- The call is a login that has just verified the stored record `record`. -/
structure Verified (s : AuthState) (call : Call) (record : User) : Prop where
  login : ∃ email password, call.request = .login email password
  mem : record ∈ s.store.users

/-- What the next query of a call does to the tokens. -/
inductive Advanced (s : AuthState) (call : Call) (tokens' : List StoredToken) (next' : ℕ) :
    CallStage → Prop
  /-- Nothing is written. -/
  | kept {stage} (htokens : tokens' = s.tokens) (hnext : s.nextUuid ≤ next')
      (hpresented : ∀ stored, stage.presented = some stored →
        call.stage.presented = some stored ∨ Found s call stored)
      (hrecord : ∀ record, stage.record = some record →
        call.stage.record = some record ∨ Verified s call record)
      (hsuccessor : call.stage.successor = none ∧ stage.successor = none)
      (hanswer : ∀ answer, stage = .answered answer → call.stage = .answered answer ∨ answer.Plain) :
      Advanced s call tokens' next' stage
  /-- A login stores the first token of a new family. -/
  | opened {record row token} (hstage : call.stage = .issuing record) (hsub : token.sub = record.id)
      (hrow : row.id = token.jti) (hid : token.jti = s.nextUuid) (huser : row.userId = record.id)
      (hfamily : row.familyId = s.nextUuid + 1)
      (hnext : next' = s.nextUuid + 2) (htokens : tokens' = s.tokens ++ [row]) :
      Advanced s call tokens' next'
        (.answered (.session token (s.nextUuid + 1) (some record.passwordHash)))
  /-- A refresh stores the successor. -/
  | rotated {stored row token} (hstage : call.stage = .rotating stored) (hrow : row.id = token.jti)
      (hid : token.jti = s.nextUuid) (huser : row.userId = stored.userId)
      (hfamily : row.familyId = stored.familyId)
      (hnext : next' = s.nextUuid + 2) (htokens : tokens' = s.tokens ++ [row]) :
      Advanced s call tokens' next' (.claiming stored token)
  /-- A refresh claims the presented token. -/
  | claimed {stored next p f} (hstage : call.stage = .claiming stored next)
      (hp : ∀ row, p row = true ↔ row.id = stored.id ∧ row.Active) (hf : Marks f)
      (hclaimed : ∃ row ∈ s.tokens, p row = true) (hnext : next' = s.nextUuid)
      (htokens : tokens' = updateMany p f s.tokens) :
      Advanced s call tokens' next' (.answered (.session next stored.familyId none))
  /-- A refresh finds the presented token claimed. -/
  | missed {stored next} (hstage : call.stage = .claiming stored next)
      (hnext : next' = s.nextUuid)
      (htokens : ∃ p f, Marks f ∧ tokens' = updateMany p f s.tokens) :
      Advanced s call tokens' next' (.undoing stored next)
  /-- A refresh revokes the successor it could not hand out. -/
  | undone {stored next p f} (hstage : call.stage = .undoing stored next)
      (hp : ∀ row, p row = true ↔ row.id = next.jti) (hf : Marks f)
      (hnext : next' = s.nextUuid) (htokens : tokens' = updateMany p f s.tokens) :
      Advanced s call tokens' next' (.answered .invalid)
  /-- A family is revoked. -/
  | ended {stored reason p f} (hstage : call.stage = .ending stored reason)
      (hp : ∀ row, p row = true ↔ row.familyId = stored.familyId ∧ row.Active) (hf : Marks f)
      (hnext : next' = s.nextUuid) (htokens : tokens' = updateMany p f s.tokens) :
      Advanced s call tokens' next' (.answered (reason.answer stored.familyId))
  /-- All tokens of a user are revoked. -/
  | revokedAll {userId p f} (hstage : call.stage = .updated userId)
      (hp : ∀ row, p row = true ↔ row.userId = userId ∧ row.Active) (hf : Marks f)
      (hnext : next' = s.nextUuid) (htokens : tokens' = updateMany p f s.tokens) :
      Advanced s call tokens' next' (.answered .reset)

section Advance

variable {deps : AuthServiceDependencies} {s s' : AuthState} {call : Call}
  {tokens' : List StoredToken} {next' : ℕ}

/-- A plain answer, given without a write. -/
theorem Advanced.answer {answer : Answer} (hplain : answer.Plain)
    (hsuccessor : call.stage.successor = none) : Advanced s call s.tokens s.nextUuid (.answered answer) := by
  refine .kept rfl le_rfl nofun nofun ⟨hsuccessor, rfl⟩ fun given hgiven => .inr ?_
  rw [← CallStage.answered.inj hgiven]
  exact hplain

/-- A step that moves on without a write. -/
theorem Advanced.moves {stage : CallStage} (htokens : tokens' = s.tokens) (hnext : s.nextUuid ≤ next')
    (hpresented : ∀ stored, stage.presented = some stored →
      call.stage.presented = some stored ∨ Found s call stored)
    (hrecord : ∀ record, stage.record = some record →
      call.stage.record = some record ∨ Verified s call record)
    (hsuccessor : call.stage.successor = none ∧ stage.successor = none)
    (hanswer : ∀ answer, stage ≠ .answered answer) : Advanced s call tokens' next' stage :=
  .kept htokens hnext hpresented hrecord hsuccessor fun answer h => absurd h (hanswer answer)

theorem findPresented_eq_some {token : RefreshToken} {stored : StoredToken}
    (h : findPresented deps s token = some stored) : stored ∈ s.tokens ∧ stored.id = token.jti := by
  obtain ⟨hfound, hnamed⟩ := Option.filter_eq_some_iff.mp h
  rw [Bool.and_eq_true, decide_eq_true_eq] at hnamed
  exact ⟨List.mem_of_find?_eq_some hfound, hnamed.1⟩

theorem found_of_presented {token : RefreshToken} {stored : StoredToken}
    (hrequest : call.request = .refresh token ∨ call.request = .logout token)
    (hverify : s.verifyRefresh token = true) (h : findPresented deps s token = some stored) :
    Found s call stored := by
  obtain ⟨hmem, hid⟩ := findPresented_eq_some h
  unfold AuthState.verifyRefresh at hverify
  rw [Bool.and_eq_true] at hverify
  exact ⟨hmem, token, hrequest, hid.symm, hverify.1⟩

/-- The first query of a call writes no token. -/
theorem advanced_begin (hstage : call.stage = .waiting) :
    Advanced s call (call.request.begin deps s).1.tokens (call.request.begin deps s).1.nextUuid
      (call.request.begin deps s).2 := by
  have hsuccessor : call.stage.successor = none := by
    rw [hstage]
    rfl
  have hplain {answer : Answer} (h : answer.Plain) : Advanced s call s.tokens s.nextUuid (.answered answer) :=
    .answer h hsuccessor
  have hmoves {tokens' : List StoredToken} {next' : ℕ} {stage : CallStage}
      (htokens : tokens' = s.tokens) (hnext : s.nextUuid ≤ next') (hnone : stage.successor = none)
      (hpresented : ∀ stored, stage.presented = some stored → Found s call stored)
      (hrecord : ∀ record, stage.record = some record → Verified s call record)
      (hanswer : ∀ answer, stage ≠ .answered answer) : Advanced s call tokens' next' stage :=
    .moves htokens hnext (fun stored h => .inr (hpresented stored h))
      (fun record h => .inr (hrecord record h)) ⟨hsuccessor, hnone⟩ hanswer
  cases hrequest : call.request with
  | login email password =>
      dsimp only [AuthRequest.begin]
      split
      · exact hplain ⟨nofun, nofun⟩
      · rename_i record hrecord
        split
        · exact hplain ⟨nofun, nofun⟩
        · split
          · exact hplain ⟨nofun, nofun⟩
          · refine hmoves rfl le_rfl rfl nofun (fun other h => ?_) nofun
            rw [← Option.some.inj h]
            exact ⟨⟨email, password, hrequest⟩, List.mem_of_find?_eq_some hrecord⟩
  | refresh token =>
      dsimp only [AuthRequest.begin]
      split
      · exact hplain ⟨nofun, nofun⟩
      · rename_i hverify
        rw [not_not] at hverify
        split
        · exact hplain ⟨nofun, nofun⟩
        · rename_i stored hfound
          have hfound := found_of_presented (.inl hrequest) hverify hfound
          have hrow (other : StoredToken) (h : some stored = some other) : Found s call other := by
            rw [← Option.some.inj h]
            exact hfound
          split
          · exact hmoves rfl le_rfl rfl hrow nofun nofun
          · split
            · exact hplain ⟨nofun, nofun⟩
            · exact hmoves rfl le_rfl rfl hrow nofun nofun
  | logout token =>
      dsimp only [AuthRequest.begin]
      split
      · exact hplain ⟨nofun, nofun⟩
      · rename_i hverify
        rw [not_not] at hverify
        split
        · exact hplain ⟨nofun, nofun⟩
        · rename_i stored hfound
          have hfound := found_of_presented (.inr hrequest) hverify hfound
          split
          · exact hplain ⟨nofun, nofun⟩
          · refine hmoves rfl le_rfl rfl (fun other h => ?_) nofun nofun
            rw [← Option.some.inj h]
            exact hfound
  | resetPassword email password =>
      dsimp only [AuthRequest.begin]
      split
      · exact hplain ⟨nofun, nofun⟩
      · split
        · exact hplain ⟨nofun, nofun⟩
        · split
          · exact hplain ⟨nofun, nofun⟩
          · exact hmoves rfl (Nat.le_succ _) rfl nofun nofun nofun

theorem issueSession_eq_some {userId : Id} {familyId : Option Id} {token : RefreshToken} {family : Id}
    (h : s.issueSession deps userId familyId = some (s', token, family)) :
    family = familyId.getD (s.nextUuid + 1) ∧ token.jti = s.nextUuid ∧ token.sub = userId ∧
      s'.nextUuid = s.nextUuid + 2 ∧
      ∃ row : StoredToken, row.id = token.jti ∧ row.userId = userId ∧ row.familyId = family ∧
        s'.tokens = s.tokens ++ [row] := by
  unfold AuthState.issueSession AuthStore.create at h
  obtain ⟨store, hstore, hissued⟩ := Option.map_eq_some_iff.mp h
  split at hstore
  · cases hstore
  · obtain rfl := Option.some.inj hstore
    simp only [Prod.mk.injEq] at hissued
    obtain ⟨rfl, rfl, rfl⟩ := hissued
    exact ⟨rfl, rfl, rfl, rfl, _, rfl, rfl, rfl, rfl⟩

/-- What the next query of a call can do. -/
theorem advanced (deps : AuthServiceDependencies) (s : AuthState) (call : Call) :
    Advanced s call (call.advance deps s).1.tokens (call.advance deps s).1.nextUuid
      (call.advance deps s).2 := by
  unfold Call.advance
  cases hstage : call.stage with
  | waiting => exact advanced_begin hstage
  | verified record =>
      dsimp only
      split
      · exact .answer ⟨nofun, nofun⟩ (by rw [hstage]; rfl)
      · refine .moves rfl le_rfl nofun (fun other h => .inl ?_) ⟨by rw [hstage]; rfl, rfl⟩ nofun
        rw [hstage]
        exact h
  | issuing record =>
      dsimp only
      split
      · exact .answer ⟨nofun, nofun⟩ (by rw [hstage]; rfl)
      · rename_i s' token family hissued
        obtain ⟨rfl, hid, hsub, hnext, row, hrow, huser, hfamily, htokens⟩ := issueSession_eq_some hissued
        exact .opened hstage hsub hrow hid huser hfamily hnext htokens
  | found stored =>
      dsimp only
      have hkept (other : StoredToken) (h : some stored = some other) :
          call.stage.presented = some other := by
        rw [hstage]
        exact h
      split
      · exact .moves rfl le_rfl (fun other h => .inl (hkept other h)) nofun ⟨by rw [hstage]; rfl, rfl⟩ nofun
      · exact .moves rfl le_rfl (fun other h => .inl (hkept other h)) nofun ⟨by rw [hstage]; rfl, rfl⟩ nofun
  | rotating stored =>
      dsimp only
      split
      · exact .answer ⟨nofun, nofun⟩ (by rw [hstage]; rfl)
      · rename_i s' token family hissued
        obtain ⟨rfl, hid, -, hnext, row, hrow, huser, hfamily, htokens⟩ := issueSession_eq_some hissued
        exact .rotated hstage hrow hid huser hfamily hnext htokens
  | claiming stored next =>
      dsimp only [AuthStore.claimForRotation]
      have hmarks : Marks fun row : StoredToken =>
          { row with revokedAt := some s.now, replacedBy := some next.jti } :=
        ⟨fun _ => rfl, fun _ => rfl, fun _ => rfl, fun _ h => by cases h⟩
      split
      · rename_i hcount
        rw [decide_eq_true_eq] at hcount
        have hpositive := Nat.lt_of_lt_of_eq Nat.one_pos hcount.symm
        refine .claimed hstage (fun row => ?_) hmarks ?_ rfl rfl
        · simp only [Bool.and_eq_true, decide_eq_true_eq, Option.isNone_iff_eq_none]
        · obtain ⟨row, hmem, hp⟩ := List.countP_pos_iff.mp hpositive
          exact ⟨row, hmem, hp⟩
      · exact .missed hstage rfl ⟨_, _, hmarks, rfl⟩
  | undoing stored next =>
      refine .undone hstage (fun row => decide_eq_true_iff) ?_ rfl rfl
      exact ⟨fun _ => rfl, fun _ => rfl, fun _ => rfl, fun _ h => by cases h⟩
  | ending stored reason =>
      refine .ended hstage (fun row => ?_) ?_ rfl rfl
      · simp only [Bool.and_eq_true, decide_eq_true_eq, Option.isNone_iff_eq_none]
      · exact ⟨fun _ => rfl, fun _ => rfl, fun _ => rfl, fun _ h => by cases h⟩
  | resetting userId passwordHash =>
      exact .moves rfl le_rfl nofun nofun ⟨by rw [hstage]; rfl, rfl⟩ nofun
  | updated userId =>
      refine .revokedAll hstage (fun row => ?_) ?_ rfl rfl
      · simp only [Bool.and_eq_true, decide_eq_true_eq, Option.isNone_iff_eq_none]
      · exact ⟨fun _ => rfl, fun _ => rfl, fun _ => rfl, fun _ h => by cases h⟩
  | answered answer =>
      refine .kept rfl le_rfl nofun nofun ⟨by rw [hstage]; rfl, rfl⟩ fun given h => .inl ?_
      rw [hstage]
      exact h

/-! ## What every query keeps -/

variable {stage : CallStage}

/-- The table after a query: the same, with one new row, or with some rows marked. -/
inductive Written (s : AuthState) (call : Call) (tokens' : List StoredToken) (next' : ℕ) : Prop
  | same (htokens : tokens' = s.tokens) (hnext : s.nextUuid ≤ next')
  | added {row} (hid : row.id = s.nextUuid)
      (hfamily : row.familyId = s.nextUuid + 1 ∨ ∃ stored, call.stage.presented = some stored ∧
        row.familyId = stored.familyId ∧ row.userId = stored.userId)
      (hnext : next' = s.nextUuid + 2) (htokens : tokens' = s.tokens ++ [row])
  | marked {p f} (hf : Marks f) (hnext : next' = s.nextUuid)
      (htokens : tokens' = updateMany p f s.tokens)

theorem Advanced.written (h : Advanced s call tokens' next' stage) :
    Written s call tokens' next' := by
  cases h with
  | kept htokens hnext => exact .same htokens hnext
  | opened hstage hsub hrow hid huser hfamily hnext htokens =>
      exact .added (hrow.trans hid) (.inl hfamily) hnext htokens
  | rotated hstage hrow hid huser hfamily hnext htokens =>
      refine .added (hrow.trans hid) (.inr ⟨_, ?_, hfamily, huser⟩) hnext htokens
      rw [hstage]
      rfl
  | claimed hstage hp hf hclaimed hnext htokens => exact .marked hf hnext htokens
  | missed hstage hnext htokens =>
      obtain ⟨p, f, hf, htokens⟩ := htokens
      exact .marked hf hnext htokens
  | undone hstage hp hf hnext htokens => exact .marked hf hnext htokens
  | ended hstage hp hf hnext htokens => exact .marked hf hnext htokens
  | revokedAll hstage hp hf hnext htokens => exact .marked hf hnext htokens

theorem Written.nextUuid (h : Written s call tokens' next') : s.nextUuid ≤ next' := by
  cases h with
  | same htokens hnext => exact hnext
  | added hid hfamily hnext htokens => omega
  | marked hf hnext htokens => exact hnext.ge

/-- No row is lost. -/
theorem Written.kept (h : Written s call tokens' next') {row : StoredToken} (hrow : row ∈ s.tokens) :
    ∃ row' ∈ tokens', Descends row row' := by
  cases h with
  | same htokens hnext =>
      rw [htokens]
      exact ⟨row, hrow, .refl row⟩
  | added hid hfamily hnext htokens =>
      rw [htokens]
      exact ⟨row, List.mem_append_left _ hrow, .refl row⟩
  | marked hf hnext htokens =>
      rw [htokens]
      exact ⟨_, mem_updateMany.mpr ⟨row, hrow, rfl⟩, hf.descends _ row⟩

/-- A row is an old one or has a new id. -/
theorem Written.from_old (h : Written s call tokens' next') {row' : StoredToken}
    (hrow' : row' ∈ tokens') : row'.id = s.nextUuid ∨ ∃ row ∈ s.tokens, Descends row row' := by
  cases h with
  | same htokens hnext =>
      rw [htokens] at hrow'
      exact .inr ⟨row', hrow', .refl row'⟩
  | added hid hfamily hnext htokens =>
      rw [htokens, List.mem_append, List.mem_singleton] at hrow'
      rcases hrow' with hrow' | rfl
      · exact .inr ⟨row', hrow', .refl row'⟩
      · exact .inl hid
  | marked hf hnext htokens =>
      rw [htokens] at hrow'
      obtain ⟨row, hrow, rfl⟩ := mem_updateMany.mp hrow'
      exact .inr ⟨row, hrow, hf.descends _ row⟩

/-- What the call presents it presented before, or has just found. -/
theorem Advanced.presented (h : Advanced s call tokens' next' stage) {stored : StoredToken}
    (hstored : stage.presented = some stored) :
    call.stage.presented = some stored ∨ Found s call stored := by
  cases h with
  | kept htokens hnext hpresented => exact hpresented stored hstored
  | rotated hstage =>
      rw [hstage]
      exact .inl hstored
  | missed hstage =>
      rw [hstage]
      exact .inl hstored
  | _ => cases hstored

/-- An unsettled successor is the new row, or was unsettled before. -/
theorem Advanced.successor (h : Advanced s call tokens' next' stage) {next : RefreshToken}
    (hnext : stage.successor = some next) :
    (∃ stored row, call.stage = .rotating stored ∧ stage = .claiming stored next ∧
      row ∈ tokens' ∧ row.id = next.jti ∧ row.familyId = stored.familyId ∧ next.jti = s.nextUuid) ∨
    ∃ stored, call.stage = .claiming stored next ∧ stage = .undoing stored next := by
  cases h with
  | kept htokens hnext' hpresented hrecord hsuccessor =>
      rw [hsuccessor.2] at hnext
      cases hnext
  | rotated hstage hrow hid huser hfamily hnext' htokens =>
      obtain rfl := Option.some.inj hnext
      refine .inl ⟨_, _, hstage, rfl, ?_, hrow, hfamily, hid⟩
      rw [htokens]
      exact List.mem_append_right _ (List.mem_singleton_self _)
  | missed hstage =>
      obtain rfl := Option.some.inj hnext
      exact .inr ⟨_, hstage, rfl⟩
  | _ => cases hnext

/-- A token that is answered was answered before, opens a family or was the successor. -/
theorem Advanced.session (h : Advanced s call tokens' next' stage) {token : RefreshToken} {family : Id}
    {verified : Option String} (hanswer : stage = .answered (.session token family verified)) :
    call.stage = .answered (.session token family verified) ∨
      (∃ record row, call.stage = .issuing record ∧ row ∈ tokens' ∧ row.id = token.jti ∧
        token.jti = s.nextUuid) ∨
      ∃ stored, call.stage = .claiming stored token := by
  cases h with
  | kept htokens hnext hpresented hrecord hsuccessor hplain =>
      rcases hplain _ hanswer with hbefore | hplain
      · exact .inl hbefore
      · exact absurd rfl (hplain.1 token family verified)
  | opened hstage hsub hrow hid huser hfamily hnext htokens =>
      cases hanswer
      refine .inr (.inl ⟨_, _, hstage, ?_, hrow, hid⟩)
      rw [htokens]
      exact List.mem_append_right _ (List.mem_singleton_self _)
  | claimed hstage =>
      cases hanswer
      exact .inr (.inr ⟨_, hstage⟩)
  | @ended stored reason => cases reason <;> cases hanswer
  | _ => cases hanswer

end Advance

/-! ## Turns -/

/-- What one event of a schedule does to the tokens and the calls. -/
inductive Turn (s s' : AuthState) : Prop
  | still (htokens : s'.tokens = s.tokens) (hnext : s'.nextUuid = s.nextUuid)
      (hcalls : s'.calls = s.calls)
  | arrived {call} (hnew : ∀ other ∈ s.calls, other.id ≠ call.id) (hstage : call.stage = .waiting)
      (htokens : s'.tokens = s.tokens) (hnext : s'.nextUuid = s.nextUuid)
      (hcalls : s'.calls = Table.upsert Call.id call s.calls)
  | advanced {call stage} (hmem : call ∈ s.calls) (h : Advanced s call s'.tokens s'.nextUuid stage)
      (hcalls : s'.calls = Table.upsert Call.id { call with stage } s.calls)

theorem turn (deps : AuthServiceDependencies) (s : AuthState) (event : AuthEvent) :
    Turn s (s.step deps event) := by
  cases event with
  | call id request =>
      unfold AuthState.step
      dsimp only
      split
      · rename_i hfree
        exact .arrived (Table.lookup_eq_none.mp hfree) rfl rfl rfl rfl
      · exact .still rfl rfl rfl
  | step id =>
      unfold AuthState.step
      dsimp only
      split
      · exact .still rfl rfl rfl
      · rename_i call hcall
        exact .advanced (Table.mem_of_lookup hcall) (advanced deps s call) rfl
  | wait milliseconds => exact .still rfl rfl rfl
  | setStatus userId status => exact .still rfl rfl rfl

/-- Ids are used once. -/
structure AuthState.Indexed (s : AuthState) : Prop where
  tokens : Table.Distinct StoredToken.id s.tokens
  calls : Table.Distinct Call.id s.calls
  fresh : ∀ row ∈ s.tokens, row.id < s.nextUuid ∧ row.familyId < s.nextUuid

/-- The state is sound: what calls hold is in the table, and what is handed out or presented is settled. -/
structure AuthState.Sound (s : AuthState) : Prop extends s.Indexed where
  presented : ∀ call ∈ s.calls, ∀ stored, call.stage.presented = some stored →
    s.Settled stored.id ∧ call.request.Presents stored.id ∧
      ∃ row ∈ s.tokens, Descends stored row
  successor : ∀ call ∈ s.calls, ∀ next, call.stage.successor = some next →
    ∃ stored, call.stage.presented = some stored ∧
      ∃ row ∈ s.tokens, row.id = next.jti ∧ row.familyId = stored.familyId
  pendingOnce : ∀ call ∈ s.calls, ∀ other ∈ s.calls, ∀ next, call.stage.successor = some next →
    ∀ next', other.stage.successor = some next' → next.jti = next'.jti → call = other
  handed : ∀ call ∈ s.calls, ∀ token familyId verified,
    call.stage = .answered (.session token familyId verified) → s.Settled token.jti

section Turns

variable {s s' : AuthState}

theorem Turn.nextUuid (h : Turn s s') : s.nextUuid ≤ s'.nextUuid := by
  cases h with
  | still htokens hnext hcalls => exact hnext.ge
  | arrived hnew hstage htokens hnext hcalls => exact hnext.ge
  | advanced hmem h hcalls => exact h.written.nextUuid

theorem Turn.kept (h : Turn s s') {row : StoredToken} (hrow : row ∈ s.tokens) :
    ∃ row' ∈ s'.tokens, Descends row row' := by
  cases h with
  | still htokens hnext hcalls =>
      rw [htokens]
      exact ⟨row, hrow, .refl row⟩
  | arrived hnew hstage htokens hnext hcalls =>
      rw [htokens]
      exact ⟨row, hrow, .refl row⟩
  | advanced hmem h hcalls => exact h.written.kept hrow

theorem Turn.from_old (h : Turn s s') {row' : StoredToken} (hrow' : row' ∈ s'.tokens) :
    row'.id = s.nextUuid ∨ ∃ row ∈ s.tokens, Descends row row' := by
  cases h with
  | still htokens hnext hcalls =>
      rw [htokens] at hrow'
      exact .inr ⟨row', hrow', .refl row'⟩
  | arrived hnew hstage htokens hnext hcalls =>
      rw [htokens] at hrow'
      exact .inr ⟨row', hrow', .refl row'⟩
  | advanced hmem h hcalls => exact h.written.from_old hrow'

theorem Turn.indexed (h : Turn s s') (hs : s.Sound) : s'.Indexed := by
  cases h with
  | still htokens hnext hcalls =>
      refine ⟨?_, ?_, ?_⟩
      · rw [htokens]
        exact hs.tokens
      · rw [hcalls]
        exact hs.calls
      · rw [htokens, hnext]
        exact hs.fresh
  | arrived hnew hstage htokens hnext hcalls =>
      refine ⟨?_, ?_, ?_⟩
      · rw [htokens]
        exact hs.tokens
      · rw [hcalls]
        exact Table.distinct_upsert hs.calls _
      · rw [htokens, hnext]
        exact hs.fresh
  | @advanced call stage hmem h hcalls =>
      have hcalls' : Table.Distinct Call.id s'.calls := by
        rw [hcalls]
        exact Table.distinct_upsert hs.calls _
      cases h.written with
      | same htokens hnext =>
          refine ⟨?_, hcalls', fun row hrow => ?_⟩
          · rw [htokens]
            exact hs.tokens
          · rw [htokens] at hrow
            obtain ⟨hid, hfamily⟩ := hs.fresh row hrow
            exact ⟨hid.trans_le hnext, hfamily.trans_le hnext⟩
      | @added row hid hfamily hnext htokens =>
          have hrowFamily : row.familyId < s.nextUuid + 2 := by
            rcases hfamily with hfamily | ⟨stored, hstored, hfamily, -⟩
            · rw [hfamily]
              exact Nat.lt_succ_self _
            · obtain ⟨-, -, old, hold, hsame⟩ := hs.presented call hmem stored hstored
              rw [hfamily, ← hsame.familyId]
              exact Nat.lt_add_right 2 (hs.fresh old hold).2
          refine ⟨?_, hcalls', fun other hother => ?_⟩
          · rw [htokens, Table.Distinct, List.map_append, List.map_singleton, List.nodup_append]
            refine ⟨hs.tokens, List.nodup_singleton _, fun id hmapped id' hnew heq => ?_⟩
            obtain ⟨old, hold, rfl⟩ := List.mem_map.mp hmapped
            rw [List.mem_singleton] at hnew
            exact absurd (heq.trans (hnew.trans hid)) (Nat.ne_of_lt (hs.fresh old hold).1)
          · rw [hnext]
            rw [htokens, List.mem_append, List.mem_singleton] at hother
            rcases hother with hother | rfl
            · obtain ⟨hotherId, hotherFamily⟩ := hs.fresh other hother
              exact ⟨Nat.lt_add_right 2 hotherId, Nat.lt_add_right 2 hotherFamily⟩
            · refine ⟨?_, hrowFamily⟩
              rw [hid]
              exact Nat.lt_add_of_pos_right Nat.two_pos
      | @marked p f hf hnext htokens =>
          refine ⟨?_, hcalls', fun row' hrow' => ?_⟩
          · rw [htokens]
            exact distinct_updateMany hf.id hs.tokens
          · rw [htokens] at hrow'
            obtain ⟨row, hrow, rfl⟩ := mem_updateMany.mp hrow'
            have hsame := hf.descends p row
            rw [hsame.id, hsame.familyId, hnext]
            exact hs.fresh row hrow

/-- Only a new token becomes pending. -/
theorem Turn.pending (h : Turn s s') {id : Id} (hpending : s'.Pending id) :
    s.Pending id ∨ id = s.nextUuid := by
  obtain ⟨call', hcall', next, hnext, rfl⟩ := hpending
  cases h with
  | still htokens hnextUuid hcalls =>
      rw [hcalls] at hcall'
      exact .inl ⟨call', hcall', next, hnext, rfl⟩
  | arrived hnew hstage htokens hnextUuid hcalls =>
      rw [hcalls] at hcall'
      rcases Table.mem_upsert hcall' with rfl | hcall'
      · rw [hstage] at hnext
        cases hnext
      · exact .inl ⟨call', hcall', next, hnext, rfl⟩
  | @advanced call stage hmem h hcalls =>
      rw [hcalls] at hcall'
      rcases Table.mem_upsert hcall' with rfl | hcall'
      · rcases h.successor hnext with ⟨stored, row, -, -, -, -, -, hid⟩ | ⟨stored, hstage, -⟩
        · exact .inr hid
        · exact .inl ⟨call, hmem, next, by rw [hstage]; rfl, rfl⟩
      · exact .inl ⟨call', hcall', next, hnext, rfl⟩

theorem Turn.settled (h : Turn s s') (hs : s.Sound) {id : Id} (hid : s.Settled id) :
    s'.Settled id := by
  obtain ⟨⟨row, hrow, rfl⟩, hnot⟩ := hid
  obtain ⟨row', hrow', hdescends⟩ := h.kept hrow
  refine ⟨⟨row', hrow', hdescends.id⟩, fun hpending => ?_⟩
  rcases h.pending hpending with hpending | hnew
  · exact hnot hpending
  · exact absurd hnew (Nat.ne_of_lt (hs.fresh row hrow).1)

/-- What is in the table stays there with its family. -/
theorem Turn.row (h : Turn s s') {id familyId : Id}
    (hrow : ∃ row ∈ s.tokens, row.id = id ∧ row.familyId = familyId) :
    ∃ row ∈ s'.tokens, row.id = id ∧ row.familyId = familyId := by
  obtain ⟨row, hrow, rfl, rfl⟩ := hrow
  obtain ⟨row', hrow', hdescends⟩ := h.kept hrow
  exact ⟨row', hrow', hdescends.id, hdescends.familyId⟩

/-- A call of the new state is an old one or the one that moved. -/
theorem Turn.call (h : Turn s s') (hs : s.Sound) {call' : Call} (hcall' : call' ∈ s'.calls) :
    call' ∈ s.calls ∨ call'.stage = .waiting ∨
      ∃ call stage, call ∈ s.calls ∧ call' = { call with stage } ∧
        Advanced s call s'.tokens s'.nextUuid stage ∧
        ∀ other ∈ s'.calls, other = call' ∨ other ∈ s.calls ∧ other.id ≠ call.id := by
  cases h with
  | still htokens hnextUuid hcalls =>
      rw [hcalls] at hcall'
      exact .inl hcall'
  | arrived hnew hstage htokens hnextUuid hcalls =>
      rw [hcalls] at hcall'
      rcases Table.mem_upsert hcall' with rfl | hcall'
      · exact .inr (.inl hstage)
      · exact .inl hcall'
  | @advanced call stage hmem h hcalls =>
      rw [hcalls] at hcall'
      rcases Table.mem_upsert hcall' with rfl | hcall'
      · refine .inr (.inr ⟨call, stage, hmem, rfl, h, fun other hother => ?_⟩)
        rw [hcalls] at hother
        exact (Table.mem_upsert_iff hs.calls).mp hother
      · exact .inl hcall'

theorem Turn.stored (h : Turn s s') {stored : StoredToken}
    (hrow : ∃ row ∈ s.tokens, Descends stored row) : ∃ row ∈ s'.tokens, Descends stored row := by
  obtain ⟨row, hrow, hdescends⟩ := hrow
  obtain ⟨row', hrow', hdescends'⟩ := h.kept hrow
  exact ⟨row', hrow', hdescends.trans hdescends'⟩

theorem found_settled (hs : s.Sound) {call : Call} {stored : StoredToken} (h : Found s call stored) :
    s.Settled stored.id ∧ call.request.Presents stored.id ∧
      ∃ row ∈ s.tokens, Descends stored row := by
  obtain ⟨token, hrequest, hjti, hhanded⟩ := h.presents
  refine ⟨?_, ⟨token, hrequest, hjti⟩, stored, h.mem, .refl stored⟩
  obtain ⟨answered, hanswered, htoken⟩ := List.any_eq_true.mp hhanded
  split at htoken
  · rename_i given familyId verified hstage
    rw [decide_eq_true_eq] at htoken
    rw [← hjti, ← htoken]
    exact hs.handed answered hanswered given familyId verified hstage
  · cases htoken

/-- Whatever is presented and unsettled of two calls is their own. -/
theorem AuthState.Sound.turn (hs : s.Sound) (h : Turn s s') : s'.Sound where
  toIndexed := h.indexed hs
  presented := by
    intro call' hcall' stored hstored
    have hheld (hold : s.Settled stored.id ∧ call'.request.Presents stored.id ∧
        ∃ row ∈ s.tokens, Descends stored row) :
        s'.Settled stored.id ∧ call'.request.Presents stored.id ∧
          ∃ row ∈ s'.tokens, Descends stored row :=
      ⟨h.settled hs hold.1, hold.2.1, h.stored hold.2.2⟩
    rcases h.call hs hcall' with hold | hstage | ⟨call, stage, hmem, rfl, hadvanced, -⟩
    · exact hheld (hs.presented call' hold stored hstored)
    · rw [hstage] at hstored
      cases hstored
    · rcases hadvanced.presented hstored with hbefore | hfound
      · exact hheld (hs.presented call hmem stored hbefore)
      · have hfound := found_settled hs hfound
        exact hheld hfound
  successor := by
    intro call' hcall' next hnext
    rcases h.call hs hcall' with hold | hstage | ⟨call, stage, hmem, rfl, hadvanced, -⟩
    · obtain ⟨stored, hstored, hrow⟩ := hs.successor call' hold next hnext
      exact ⟨stored, hstored, h.row hrow⟩
    · rw [hstage] at hnext
      cases hnext
    · rcases hadvanced.successor hnext with
        ⟨stored, row, -, rfl, hrow, hid, hfamily, -⟩ | ⟨stored, hstage, rfl⟩
      · exact ⟨stored, rfl, row, hrow, hid, hfamily⟩
      · obtain ⟨presented, hpresented, hrow⟩ := hs.successor call hmem next (by rw [hstage]; rfl)
        rw [hstage] at hpresented
        obtain rfl := Option.some.inj hpresented
        exact ⟨stored, rfl, h.row hrow⟩
  pendingOnce := by
    intro call₁ hcall₁ call₂ hcall₂ next₁ hnext₁ next₂ hnext₂ hsame
    -- a successor that is new has an id that no row has yet
    have hnew {call : Call} {stage : CallStage} {next : RefreshToken}
        (hadvanced : Advanced s call s'.tokens s'.nextUuid stage) (hmem : call ∈ s.calls)
        (hnext : stage.successor = some next) {other : Call} (hother : other ∈ s.calls)
        {next' : RefreshToken} (hnext' : other.stage.successor = some next')
        (hsame : next.jti = next'.jti) : call = other := by
      rcases hadvanced.successor hnext with ⟨-, -, -, -, -, -, -, hid⟩ | ⟨stored, hstage, -⟩
      · obtain ⟨_, -, row, hrow, hrowId, -⟩ := hs.successor other hother next' hnext'
        exact absurd (hrowId.trans (hsame.symm.trans hid)) (Nat.ne_of_lt (hs.fresh row hrow).1)
      · exact hs.pendingOnce call hmem other hother next (by rw [hstage]; rfl) next' hnext' hsame
    rcases h.call hs hcall₁ with hold₁ | hstage | ⟨call, stage, hmem, rfl, hadvanced, honly⟩
    · rcases h.call hs hcall₂ with hold₂ | hstage | ⟨call, stage, hmem, rfl, hadvanced, honly⟩
      · exact hs.pendingOnce call₁ hold₁ call₂ hold₂ next₁ hnext₁ next₂ hnext₂ hsame
      · rw [hstage] at hnext₂
        cases hnext₂
      · rcases honly call₁ hcall₁ with hthis | ⟨-, hne⟩
        · exact hthis
        · have hcall := hnew hadvanced hmem hnext₂ hold₁ hnext₁ hsame.symm
          exact absurd (congrArg Call.id hcall).symm hne
    · rw [hstage] at hnext₁
      cases hnext₁
    · rcases honly call₂ hcall₂ with hthis | ⟨hold₂, hne⟩
      · exact hthis.symm
      · have hcall := hnew hadvanced hmem hnext₁ hold₂ hnext₂ hsame
        exact absurd (congrArg Call.id hcall).symm hne
  handed := by
    intro call' hcall' token familyId verified hanswer
    rcases h.call hs hcall' with hold | hstage | ⟨call, stage, hmem, rfl, hadvanced, honly⟩
    · exact h.settled hs (hs.handed call' hold token familyId verified hanswer)
    · rw [hstage] at hanswer
      cases hanswer
    · rcases hadvanced.session hanswer with
        hbefore | ⟨record, row, -, hrow, hid, hnew⟩ | ⟨stored, hstage⟩
      · exact h.settled hs (hs.handed call hmem token familyId verified hbefore)
      · refine ⟨⟨row, hrow, hid⟩, ?_⟩
        rintro ⟨other, hother, next, hnext, hsame⟩
        rcases honly other hother with rfl | ⟨hold, -⟩
        · rw [hanswer] at hnext
          cases hnext
        · obtain ⟨_, -, old, hold, holdId, -⟩ := hs.successor other hold next hnext
          exact absurd (holdId.trans (hsame.trans hnew)) (Nat.ne_of_lt (hs.fresh old hold).1)
      · have hsuccessor : call.stage.successor = some token := by
          rw [hstage]
          rfl
        obtain ⟨_, -, hrow⟩ := hs.successor call hmem token hsuccessor
        obtain ⟨row, hrow, hid, -⟩ := h.row hrow
        refine ⟨⟨row, hrow, hid⟩, ?_⟩
        rintro ⟨other, hother, next, hnext, hsame⟩
        rcases honly other hother with rfl | ⟨hold, hne⟩
        · rw [hanswer] at hnext
          cases hnext
        · have hcall := hs.pendingOnce call hmem other hold token hsuccessor next hnext hsame.symm
          exact hne (congrArg Call.id hcall).symm

/-- A pending token stays pending, unless its own call settles it: by a claim of the presented token,
or by revoking the successor. -/
theorem Turn.pending_kept (h : Turn s s') (hs : s.Sound) {id : Id} (hpending : s.Pending id) :
    s'.Pending id ∨ (∀ row ∈ s'.tokens, row.id = id → ¬row.Active) ∨
      ∃ call ∈ s.calls, ∃ stored next, call.stage = .claiming stored next ∧ next.jti = id ∧
        (∃ row ∈ s.tokens, row.id = stored.id ∧ row.Active) ∧
        ∀ row ∈ s'.tokens, row.id = stored.id → ¬row.Active := by
  obtain ⟨owner, howner, next, hnext, rfl⟩ := hpending
  cases h with
  | still htokens hnextUuid hcalls =>
      refine .inl ⟨owner, ?_, next, hnext, rfl⟩
      rw [hcalls]
      exact howner
  | arrived hnew hstage htokens hnextUuid hcalls =>
      refine .inl ⟨owner, ?_, next, hnext, rfl⟩
      rw [hcalls]
      exact Table.mem_upsert_of_ne howner (hnew owner howner)
  | @advanced call stage hmem h hcalls =>
      by_cases hid : owner.id = call.id
      · obtain rfl : owner = call := by
          have hfound := Table.lookup_of_mem hs.calls howner
          rw [hid, Table.lookup_of_mem hs.calls hmem] at hfound
          exact (Option.some.inj hfound).symm
        have hthis : { owner with stage } ∈ s'.calls := by
          rw [hcalls]
          exact Table.mem_upsert_self ..
        cases h with
        | kept htokens hnextUuid hpresented hrecord hsuccessor =>
            rw [hsuccessor.1] at hnext
            cases hnext
        | opened hstage =>
            rw [hstage] at hnext
            cases hnext
        | rotated hstage =>
            rw [hstage] at hnext
            cases hnext
        | @claimed stored next' p f hstage hp hf hclaimed hnextUuid htokens =>
            rw [hstage] at hnext
            obtain rfl := Option.some.inj hnext
            obtain ⟨row, hrow, hclaims⟩ := hclaimed
            refine .inr (.inr ⟨owner, hmem, stored, next', hstage, rfl, ⟨row, hrow, (hp row).mp hclaims⟩,
              fun row' hrow' hstored hactive => ?_⟩)
            rw [htokens] at hrow'
            exact hf.none_active (fun _ _ hsame hthis => hsame.id.symm.trans hthis) hp hrow' hstored hactive
        | missed hstage =>
            rw [hstage] at hnext
            obtain rfl := Option.some.inj hnext
            exact .inl ⟨_, hthis, _, rfl, rfl⟩
        | @undone stored next' p f hstage hp hf hnextUuid htokens =>
            rw [hstage] at hnext
            obtain rfl := Option.some.inj hnext
            refine .inr (.inl fun row' hrow' hrowId hactive => ?_)
            rw [htokens] at hrow'
            obtain ⟨old, hold, rfl⟩ := mem_updateMany.mp hrow'
            have hrevoked := (hp old).mpr ((hf.descends p old).id.symm.trans hrowId)
            exact hf.not_active hrevoked hactive
        | ended hstage =>
            rw [hstage] at hnext
            cases hnext
        | revokedAll hstage =>
            rw [hstage] at hnext
            cases hnext
      · refine .inl ⟨owner, ?_, next, hnext, rfl⟩
        rw [hcalls]
        exact Table.mem_upsert_of_ne howner hid

/-! ## One active token a family -/

/-- Of the tokens that are not pending, a family has at most one active. -/
def AuthState.OneActive (s : AuthState) : Prop :=
  ∀ first ∈ s.tokens, ∀ second ∈ s.tokens, first.familyId = second.familyId → first.Active →
    second.Active → ¬s.Pending first.id → ¬s.Pending second.id → first = second

/-- A row that is active and settled after a turn was so before, opens a family, or is the successor of
a token that was active until this turn. -/
theorem Turn.active_settled (h : Turn s s') (hs : s.Sound) {row' : StoredToken}
    (hrow' : row' ∈ s'.tokens) (hactive : row'.Active) (hsettled : ¬s'.Pending row'.id) :
    (∃ row ∈ s.tokens, Descends row row' ∧ row.Active ∧ ¬s.Pending row.id) ∨
      (row'.id = s.nextUuid ∧ row'.familyId = s.nextUuid + 1) ∨
      ∃ claimed ∈ s.tokens, claimed.familyId = row'.familyId ∧ claimed.Active ∧
        s.Settled claimed.id ∧ (∀ row ∈ s'.tokens, row.id = claimed.id → ¬row.Active) ∧
        s.Pending row'.id := by
  rcases h.from_old hrow' with hnew | ⟨row, hrow, hdescends⟩
  · refine .inr (.inl ⟨hnew, ?_⟩)
    have hfresh : ∀ row ∈ s.tokens, row.id ≠ row'.id := by
      intro row hrow
      rw [hnew]
      exact Nat.ne_of_lt (hs.fresh row hrow).1
    cases h with
    | still htokens hnextUuid hcalls =>
        rw [htokens] at hrow'
        exact absurd rfl (hfresh row' hrow')
    | arrived hnew hstage htokens hnextUuid hcalls =>
        rw [htokens] at hrow'
        exact absurd rfl (hfresh row' hrow')
    | @advanced call stage hmem h hcalls =>
        have hold (p : StoredToken → Bool) (f : StoredToken → StoredToken) (hf : Marks f)
            (htokens : s'.tokens = updateMany p f s.tokens) : False := by
          rw [htokens] at hrow'
          obtain ⟨row, hrow, hsame⟩ := mem_updateMany.mp hrow'
          refine hfresh row hrow ?_
          rw [← hsame]
          exact (hf.descends p row).id.symm
        cases h with
        | kept htokens =>
            rw [htokens] at hrow'
            exact absurd rfl (hfresh row' hrow')
        | opened hstage hsub hrow hid huser hfamily hnextUuid htokens =>
            rw [htokens, List.mem_append, List.mem_singleton] at hrow'
            rcases hrow' with hrow' | rfl
            · exact absurd rfl (hfresh row' hrow')
            · exact hfamily
        | @rotated stored row token hstage hrow hid huser hfamily hnextUuid htokens =>
            have hthis : { call with stage := .claiming stored token } ∈ s'.calls := by
              rw [hcalls]
              exact Table.mem_upsert_self ..
            exact absurd ⟨_, hthis, token, rfl, hid.trans hnew.symm⟩ hsettled
        | @claimed stored next p f hstage hp hf hclaimed hnextUuid htokens =>
            exact (hold p f hf htokens).elim
        | missed hstage hnextUuid htokens =>
            obtain ⟨p, f, hf, htokens⟩ := htokens
            exact (hold p f hf htokens).elim
        | @undone stored next p f hstage hp hf hnextUuid htokens => exact (hold p f hf htokens).elim
        | @ended stored reason p f hstage hp hf hnextUuid htokens => exact (hold p f hf htokens).elim
        | @revokedAll userId p f hstage hp hf hnextUuid htokens => exact (hold p f hf htokens).elim
  · by_cases hpending : s.Pending row.id
    · rcases h.pending_kept hs hpending with
        hkept | hrevoked | ⟨call, hcall, stored, next, hstage, hnext, ⟨old, hold, hstored, hwas⟩, hnow⟩
      · rw [← hdescends.id] at hkept
        exact absurd hkept hsettled
      · exact absurd hactive (hrevoked row' hrow' hdescends.id)
      · have hpresented : call.stage.presented = some stored := by
          rw [hstage]
          rfl
        obtain ⟨hsettledId, -, other, hother, hothers⟩ := hs.presented call hcall stored hpresented
        obtain ⟨_, hsame, successor, hsuccessor, hsuccessorId, hsuccessorFamily⟩ :=
          hs.successor call hcall next (by rw [hstage]; rfl)
        rw [hpresented, Option.some.injEq] at hsame
        subst hsame
        have hunique {a b : StoredToken} (ha : a ∈ s.tokens) (hb : b ∈ s.tokens) (hab : a.id = b.id) :
            a = b := by
          have hfound := Table.lookup_of_mem hs.tokens ha
          rw [hab, Table.lookup_of_mem hs.tokens hb] at hfound
          exact (Option.some.inj hfound).symm
        obtain rfl := hunique hold hother (hstored.trans hothers.id.symm)
        obtain rfl := hunique hsuccessor hrow (hsuccessorId.trans hnext)
        refine .inr (.inr ⟨old, hold, ?_, hwas, ?_, ?_, ?_⟩)
        · rw [hdescends.familyId, hsuccessorFamily]
          exact hothers.familyId
        · rw [hstored]
          exact hsettledId
        · rw [hstored]
          exact hnow
        · rw [hdescends.id]
          exact hpending
    · exact .inl ⟨row, hrow, hdescends, hdescends.active hactive, hpending⟩

/-- A turn settles at most one pending token. -/
theorem Turn.settles_once (h : Turn s s') (hs : s.Sound) {first second : Id}
    (hfirst : s.Pending first) (hfirst' : ¬s'.Pending first) (hsecond : s.Pending second)
    (hsecond' : ¬s'.Pending second) : first = second := by
  obtain ⟨owner₁, howner₁, next₁, hnext₁, rfl⟩ := hfirst
  obtain ⟨owner₂, howner₂, next₂, hnext₂, rfl⟩ := hsecond
  cases h with
  | still htokens hnextUuid hcalls =>
      refine absurd ⟨owner₁, ?_, next₁, hnext₁, rfl⟩ hfirst'
      rw [hcalls]
      exact howner₁
  | arrived hnew hstage htokens hnextUuid hcalls =>
      refine absurd ⟨owner₁, ?_, next₁, hnext₁, rfl⟩ hfirst'
      rw [hcalls]
      exact Table.mem_upsert_of_ne howner₁ (hnew owner₁ howner₁)
  | @advanced call stage hmem h hcalls =>
      have hmoved {owner : Call} {next : RefreshToken} (howner : owner ∈ s.calls)
          (hnext : owner.stage.successor = some next) (hnot : ¬s'.Pending next.jti) :
          owner.id = call.id := by
        by_contra hne
        refine hnot ⟨owner, ?_, next, hnext, rfl⟩
        rw [hcalls]
        exact Table.mem_upsert_of_ne howner hne
      have hsame : owner₁ = owner₂ := by
        have hfound := Table.lookup_of_mem hs.calls howner₁
        rw [hmoved howner₁ hnext₁ hfirst', ← hmoved howner₂ hnext₂ hsecond',
          Table.lookup_of_mem hs.calls howner₂] at hfound
        exact (Option.some.inj hfound).symm
      subst hsame
      rw [hnext₁] at hnext₂
      rw [Option.some.inj hnext₂]

theorem AuthState.Indexed.eq_of_id (hs : s.Indexed) {row other : StoredToken} (hrow : row ∈ s.tokens)
    (hother : other ∈ s.tokens) (hid : row.id = other.id) : row = other := by
  have hfound := Table.lookup_of_mem hs.tokens hrow
  rw [hid, Table.lookup_of_mem hs.tokens hother] at hfound
  exact (Option.some.inj hfound).symm

theorem AuthState.OneActive.turn (hone : s.OneActive) (hs : s.Sound) (h : Turn s s') :
    s'.OneActive := by
  intro first hfirst second hsecond hfamily hactive hactive' hsettled hsettled'
  have hindexed := h.indexed hs
  -- an active settled row is none of the family that a login opens, or of the token just claimed
  have hapart {row' row other : StoredToken} (hrow : row ∈ s.tokens)
      (hrowFamily : row.familyId = row'.familyId) (hfamily : row'.familyId = other.familyId)
      (hopened : other.familyId = s.nextUuid + 1) : False := by
    have hlt := (hs.fresh row hrow).2
    rw [hrowFamily, hfamily, hopened] at hlt
    exact Nat.not_succ_lt_self hlt
  have hspent {old old' claimed : StoredToken} (hold : old ∈ s.tokens) (hdescends : Descends old old')
      (hold' : old' ∈ s'.tokens) (hactive : old.Active) (hnot : ¬s.Pending old.id)
      (hactive' : old'.Active) (hclaimed : claimed ∈ s.tokens)
      (hfamily : claimed.familyId = old'.familyId) (hwas : claimed.Active)
      (hsettled : s.Settled claimed.id)
      (hnow : ∀ row ∈ s'.tokens, row.id = claimed.id → ¬row.Active) : False := by
    have hsame := hone old hold claimed hclaimed (hdescends.familyId.symm.trans hfamily.symm) hactive
      hwas hnot hsettled.2
    refine hnow old' hold' ?_ hactive'
    rw [hdescends.id, hsame]
  rcases h.active_settled hs hfirst hactive hsettled with
    ⟨old, hold, hdescends, hold_active, hold_settled⟩ | ⟨hid, hopened⟩ |
      ⟨claimed, hclaimed, hclaimedFamily, hwas, hclaimedSettled, hnow, hpending⟩
  · rcases h.active_settled hs hsecond hactive' hsettled' with
      ⟨old', hold', hdescends', hold_active', hold_settled'⟩ | ⟨hid', hopened'⟩ |
        ⟨claimed, hclaimed, hclaimedFamily, hwas, hclaimedSettled, hnow, -⟩
    · have hsame := hone old hold old' hold'
        (hdescends.familyId.symm.trans (hfamily.trans hdescends'.familyId)) hold_active hold_active'
        hold_settled hold_settled'
      refine hindexed.eq_of_id hfirst hsecond ?_
      rw [hdescends.id, hdescends'.id, hsame]
    · exact (hapart hold hdescends.familyId.symm hfamily hopened').elim
    · exact (hspent hold hdescends hfirst hold_active hold_settled hactive hclaimed
        (hclaimedFamily.trans hfamily.symm) hwas hclaimedSettled hnow).elim
  · rcases h.active_settled hs hsecond hactive' hsettled' with
      ⟨old', hold', hdescends', -, -⟩ | ⟨hid', -⟩ | ⟨claimed, hclaimed, hclaimedFamily, -, -, -, -⟩
    · exact (hapart hold' hdescends'.familyId.symm hfamily.symm hopened).elim
    · exact hindexed.eq_of_id hfirst hsecond (hid.trans hid'.symm)
    · exact (hapart hclaimed hclaimedFamily hfamily.symm hopened).elim
  · rcases h.active_settled hs hsecond hactive' hsettled' with
      ⟨old', hold', hdescends', hold_active', hold_settled'⟩ | ⟨hid', hopened'⟩ |
        ⟨-, -, -, -, -, -, hpending'⟩
    · exact (hspent hold' hdescends' hsecond hold_active' hold_settled' hactive' hclaimed
        (hclaimedFamily.trans hfamily) hwas hclaimedSettled hnow).elim
    · exact (hapart hclaimed hclaimedFamily hfamily hopened').elim
    · exact hindexed.eq_of_id hfirst hsecond (h.settles_once hs hpending hsettled hpending' hsettled')

/-! ## Families that have ended -/

/-- Nothing revives a family that has ended. -/
theorem AuthState.Dead.turn {familyId : Id} (hdead : s.Dead familyId) (hs : s.Sound)
    (h : Turn s s') : s'.Dead familyId := by
  obtain ⟨hused, hpending⟩ := hdead
  refine ⟨hused.trans_le h.nextUuid, fun row' hrow' hfamily hactive => ?_⟩
  by_contra hsettled
  rcases h.active_settled hs hrow' hactive hsettled with
    ⟨old, hold, hdescends, hold_active, hold_settled⟩ | ⟨-, hopened⟩ |
      ⟨claimed, hclaimed, hclaimedFamily, hwas, hclaimedSettled, -, -⟩
  · exact hold_settled (hpending old hold (hdescends.familyId.symm.trans hfamily) hold_active)
  · rw [← hfamily, hopened] at hused
    exact Nat.not_succ_lt_self hused
  · exact hclaimedSettled.2 (hpending claimed hclaimed (hclaimedFamily.trans hfamily) hwas)

/-- A family in which nothing is active has ended. -/
theorem AuthState.dead_of_none {familyId : Id} (hused : familyId < s.nextUuid)
    (hnone : ∀ row ∈ s.tokens, row.familyId = familyId → ¬row.Active) : s.Dead familyId :=
  ⟨hused, fun row hrow hfamily hactive => absurd hactive (hnone row hrow hfamily)⟩

/-- Revoking a family ends it. -/
theorem Advanced.dead_of_ended (hs : s.Sound) {call : Call} (hcall : call ∈ s.calls)
    {stored : StoredToken} {reason : FamilyEnd} (hstage : call.stage = .ending stored reason)
    {p : StoredToken → Bool} {f : StoredToken → StoredToken}
    (hp : ∀ row, p row = true ↔ row.familyId = stored.familyId ∧ row.Active) (hf : Marks f)
    (hnext : s'.nextUuid = s.nextUuid) (htokens : s'.tokens = updateMany p f s.tokens) :
    s'.Dead stored.familyId := by
  obtain ⟨-, -, row, hrow, hsame⟩ := hs.presented call hcall stored (by rw [hstage]; rfl)
  refine AuthState.dead_of_none ?_ fun row' hrow' hfamily' hactive => ?_
  · rw [hnext, ← hsame.familyId]
    exact (hs.fresh row hrow).2
  · rw [htokens] at hrow'
    exact hf.none_active (fun _ _ hsame hthis => hsame.familyId.symm.trans hthis) hp hrow' hfamily' hactive

/-- A family of which a reuse was answered has ended. -/
def AuthState.ReusesEnd (s : AuthState) : Prop :=
  ∀ call ∈ s.calls, ∀ familyId, call.stage = .answered (.reuse familyId) → s.Dead familyId

theorem AuthState.ReusesEnd.turn (hends : s.ReusesEnd) (hs : s.Sound) (h : Turn s s') :
    s'.ReusesEnd := by
  intro call' hcall' familyId hanswer
  rcases h.call hs hcall' with hold | hstage | ⟨call, stage, hmem, rfl, hadvanced, -⟩
  · exact (hends call' hold familyId hanswer).turn hs h
  · rw [hstage] at hanswer
    cases hanswer
  · have hanswer : stage = .answered (.reuse familyId) := hanswer
    cases hadvanced with
    | kept htokens hnext hpresented hrecord hsuccessor hplain =>
        rcases hplain _ hanswer with hbefore | hplain
        · exact (hends call hmem familyId hbefore).turn hs h
        · exact absurd rfl (hplain.2 familyId)
    | @ended stored reason p f hstage hp hf hnext htokens =>
        cases reason with
        | reuse =>
            cases hanswer
            exact Advanced.dead_of_ended hs hmem hstage hp hf hnext htokens
        | disabled => cases hanswer
        | logout => cases hanswer
    | _ => cases hanswer

/-! ## Exchanges -/

/-- The call has exchanged the token for a session. -/
def Call.Exchanged (call : Call) (token : RefreshToken) : Prop :=
  call.request = .refresh token ∧ ∃ next familyId verified,
    call.stage = .answered (.session next familyId verified)

/-- A token that is exchanged is not active any more, and was exchanged by one call. -/
structure AuthState.Exchanges (s : AuthState) : Prop where
  login : ∀ call ∈ s.calls, ∀ record, call.stage.record = some record →
    ∃ email password, call.request = .login email password
  spent : ∀ call ∈ s.calls, ∀ token, call.Exchanged token →
    s.Settled token.jti ∧ ∀ row ∈ s.tokens, row.id = token.jti → ¬row.Active
  once : ∀ call ∈ s.calls, ∀ other ∈ s.calls, ∀ token, call.Exchanged token →
    other.Exchanged token → call = other

/-- A call that exchanges a token in this turn had it claimed, and it was active until then. -/
theorem Advanced.exchanged (hs : s.Sound) (hexchanges : s.Exchanges) {call : Call} {stage : CallStage}
    {token : RefreshToken} (hcall : call ∈ s.calls)
    (h : Advanced s call s'.tokens s'.nextUuid stage)
    (hexchanged : Call.Exchanged { call with stage } token) :
    call.Exchanged token ∨ s.Settled token.jti ∧ (∃ row ∈ s.tokens, row.id = token.jti ∧ row.Active) ∧
      ∀ row ∈ s'.tokens, row.id = token.jti → ¬row.Active := by
  obtain ⟨hrequest, next, familyId, verified, hanswer⟩ := hexchanged
  have hanswer : stage = .answered (.session next familyId verified) := hanswer
  have hrequest : call.request = .refresh token := hrequest
  cases h with
  | kept htokens hnext hpresented hrecord hsuccessor hplain =>
      rcases hplain _ hanswer with hbefore | hplain
      · exact .inl ⟨hrequest, next, familyId, verified, hbefore⟩
      · exact absurd rfl (hplain.1 next familyId verified)
  | @opened record row token' hstage =>
      obtain ⟨email, password, hlogin⟩ := hexchanges.login call hcall record (by rw [hstage]; rfl)
      rw [hrequest] at hlogin
      cases hlogin
  | @claimed stored next' p f hstage hp hf hclaimed hnext htokens =>
      obtain ⟨hsettled, hpresents, -⟩ := hs.presented call hcall stored (by rw [hstage]; rfl)
      obtain ⟨presented, hpresented, hjti⟩ := hpresents
      have hsame : presented = token := by
        rw [hrequest] at hpresented
        rcases hpresented with hrefresh | hlogout
        · exact (AuthRequest.refresh.inj hrefresh).symm
        · cases hlogout
      rw [hsame] at hjti
      obtain ⟨row, hrow, hclaims⟩ := hclaimed
      rw [hp, ← hjti] at hclaims
      refine .inr ⟨hjti ▸ hsettled, ⟨row, hrow, hclaims⟩, fun row' hrow' hid hactive => ?_⟩
      rw [htokens] at hrow'
      exact hf.none_active (fun _ _ hsame hthis => hsame.id.symm.trans hthis) hp hrow' (hid.trans hjti)
        hactive
  | @ended stored reason => cases reason <;> cases hanswer
  | _ => cases hanswer

/-- A settled token that is not active stays so. -/
theorem Turn.spent (h : Turn s s') (hs : s.Sound) {id : Id}
    (hspent : s.Settled id ∧ ∀ row ∈ s.tokens, row.id = id → ¬row.Active) :
    s'.Settled id ∧ ∀ row ∈ s'.tokens, row.id = id → ¬row.Active := by
  refine ⟨h.settled hs hspent.1, fun row' hrow' hid hactive => ?_⟩
  obtain ⟨row, hrow, hrowId⟩ := hspent.1.1
  rcases h.from_old hrow' with hnew | ⟨old, hold, hdescends⟩
  · exact absurd (hrowId.trans (hid.symm.trans hnew)) (Nat.ne_of_lt (hs.fresh row hrow).1)
  · exact hspent.2 old hold (hdescends.id.symm.trans hid) (hdescends.active hactive)

theorem AuthState.Exchanges.turn (hexchanges : s.Exchanges) (hs : s.Sound) (h : Turn s s') :
    s'.Exchanges where
  login := by
    intro call' hcall' record hrecord
    rcases h.call hs hcall' with hold | hstage | ⟨call, stage, hmem, rfl, hadvanced, -⟩
    · exact hexchanges.login call' hold record hrecord
    · rw [hstage] at hrecord
      cases hrecord
    · cases hadvanced with
      | kept htokens hnext hpresented hrecords =>
          rcases hrecords record hrecord with hbefore | hverified
          · exact hexchanges.login call hmem record hbefore
          · exact hverified.login
      | _ => cases hrecord
  spent := by
    intro call' hcall' token hexchanged
    rcases h.call hs hcall' with hold | hstage | ⟨call, stage, hmem, rfl, hadvanced, -⟩
    · exact h.spent hs (hexchanges.spent call' hold token hexchanged)
    · obtain ⟨-, next, familyId, verified, hanswer⟩ := hexchanged
      rw [hstage] at hanswer
      cases hanswer
    · rcases hadvanced.exchanged hs hexchanges hmem hexchanged with hbefore | ⟨hsettled, -, hnow⟩
      · exact h.spent hs (hexchanges.spent call hmem token hbefore)
      · exact ⟨h.settled hs hsettled, hnow⟩
  once := by
    intro first hfirst second hsecond token hexchanged hexchanged'
    -- the claim needs the token active, and it is not once another call has exchanged it
    have hnew {call other : Call} {stage : CallStage} (hmem : call ∈ s.calls)
        (hadvanced : Advanced s call s'.tokens s'.nextUuid stage)
        (hexchanged : Call.Exchanged { call with stage } token) (hother : other ∈ s.calls)
        (hother' : other.Exchanged token) (hne : other.id ≠ call.id) : False := by
      rcases hadvanced.exchanged hs hexchanges hmem hexchanged with
        hbefore | ⟨-, ⟨row, hrow, hid, hactive⟩, -⟩
      · exact hne (congrArg Call.id (hexchanges.once other hother call hmem token hother' hbefore))
      · exact (hexchanges.spent other hother token hother').2 row hrow hid hactive
    have hwaiting {call : Call} (hstage : call.stage = .waiting) (h : call.Exchanged token) : False := by
      obtain ⟨-, next, familyId, verified, hanswer⟩ := h
      rw [hstage] at hanswer
      cases hanswer
    rcases h.call hs hfirst with hold | hstage | ⟨call, stage, hmem, rfl, hadvanced, honly⟩
    · rcases h.call hs hsecond with hold' | hstage | ⟨call, stage, hmem, rfl, hadvanced, honly⟩
      · exact hexchanges.once first hold second hold' token hexchanged hexchanged'
      · exact (hwaiting hstage hexchanged').elim
      · rcases honly first hfirst with hthis | ⟨-, hne⟩
        · exact hthis
        · exact (hnew hmem hadvanced hexchanged' hold hexchanged hne).elim
    · exact (hwaiting hstage hexchanged).elim
    · rcases honly second hsecond with hthis | ⟨hold, hne⟩
      · exact hthis.symm
      · exact (hnew hmem hadvanced hexchanged hold hexchanged' hne).elim

end Turns

/-! ## Every schedule -/

def CallStage.finished : CallStage → Bool
  | answered _ => true
  | _ => false

theorem CallStage.successor_of_finished {stage : CallStage} (h : stage.finished = true) :
    stage.successor = none := by
  cases stage with
  | answered answer => rfl
  | _ => cases h

namespace AuthState

/-- No call that presents a token of the family is in progress. -/
def IdleOn (s : AuthState) (familyId : Id) : Prop :=
  ∀ call ∈ s.calls, (∃ row ∈ s.tokens, row.familyId = familyId ∧ call.request.Presents row.id) →
    call.stage.finished = true

/-- A refresh has found a token of the family revoked. -/
def ReuseDetected (s : AuthState) (familyId : Id) : Prop :=
  ∃ call ∈ s.calls, call.stage = .answered (.reuse familyId) ∨
    ∃ stored, call.stage = .ending stored .reuse ∧ stored.familyId = familyId

variable {s : AuthState}

/-- Between the calls on a family nothing of it is pending. -/
theorem IdleOn.settled {familyId : Id} (hidle : s.IdleOn familyId) (hs : s.Sound) {row : StoredToken}
    (hrow : row ∈ s.tokens) (hfamily : row.familyId = familyId) : ¬s.Pending row.id := by
  rintro ⟨call, hcall, next, hnext, hid⟩
  obtain ⟨stored, hstored, successor, hsuccessor, hsuccessorId, hsame⟩ :=
    hs.successor call hcall next hnext
  obtain ⟨-, hpresents, presented, hpresented, hdescends⟩ := hs.presented call hcall stored hstored
  obtain rfl := hs.eq_of_id hsuccessor hrow (hsuccessorId.trans hid)
  have hfinished := hidle call hcall
    ⟨presented, hpresented, hdescends.familyId.trans (hsame.symm.trans hfamily), by
      rw [hdescends.id]
      exact hpresents⟩
  rw [CallStage.successor_of_finished hfinished] at hnext
  cases hnext

/-- What every reachable state satisfies. -/
structure Rotates (s : AuthState) : Prop where
  sound : s.Sound
  oneActive : s.OneActive
  reusesEnd : s.ReusesEnd
  exchanges : s.Exchanges

theorem Fresh.rotates (h : s.Fresh) : s.Rotates := by
  have htokens {row : StoredToken} (hrow : row ∈ s.tokens) : False := by
    rw [h.tokens] at hrow
    cases hrow
  have hcalls {call : Call} (hcall : call ∈ s.calls) : False := by
    rw [h.calls] at hcall
    cases hcall
  refine ⟨⟨⟨?_, ?_, fun row hrow => (htokens hrow).elim⟩, fun call hcall => (hcalls hcall).elim,
    fun call hcall => (hcalls hcall).elim, fun call hcall => (hcalls hcall).elim,
    fun call hcall => (hcalls hcall).elim⟩, fun row hrow => (htokens hrow).elim,
    fun call hcall => (hcalls hcall).elim, ⟨fun call hcall => (hcalls hcall).elim,
    fun call hcall => (hcalls hcall).elim, fun call hcall => (hcalls hcall).elim⟩⟩
  · rw [h.tokens]
    exact List.nodup_nil
  · rw [h.calls]
    exact List.nodup_nil

theorem Rotates.step (h : s.Rotates) (deps : AuthServiceDependencies) (event : AuthEvent) :
    (s.step deps event).Rotates := by
  have hturn := turn deps s event
  exact ⟨h.sound.turn hturn, h.oneActive.turn h.sound hturn, h.reusesEnd.turn h.sound hturn,
    h.exchanges.turn h.sound hturn⟩

theorem Rotates.run (h : s.Rotates) (deps : AuthServiceDependencies) (events : List AuthEvent) :
    (s.run deps events).Rotates :=
  Machine.invariant (fun _ event hs => hs.step deps event) h events

end AuthState

/-- Under every schedule, a refresh token is exchanged for a session by at most one call; a family on
which no call is in progress has at most one active token, and none if a reuse of one of its tokens was
detected. -/
theorem rotation_safe (deps : AuthServiceDependencies) (s₀ : AuthState) (hfresh : s₀.Fresh)
    (events : List AuthEvent) :
    let s := s₀.run deps events
    (∀ token, ∀ call ∈ s.calls, ∀ other ∈ s.calls, call.Exchanged token → other.Exchanged token →
      call = other) ∧
      ∀ familyId, s.IdleOn familyId →
        (∀ first ∈ s.tokens, ∀ second ∈ s.tokens, first.familyId = familyId →
          second.familyId = familyId → first.Active → second.Active → first = second) ∧
        (s.ReuseDetected familyId → ∀ row ∈ s.tokens, row.familyId = familyId → ¬row.Active) := by
  intro s
  have hs : s.Rotates := hfresh.rotates.run deps events
  refine ⟨fun token call hcall other hother => hs.exchanges.once call hcall other hother token,
    fun familyId hidle => ⟨?_, ?_⟩⟩
  · intro first hfirst second hsecond hfamily hfamily' hactive hactive'
    exact hs.oneActive first hfirst second hsecond (hfamily.trans hfamily'.symm) hactive hactive'
      (hidle.settled hs.sound hfirst hfamily) (hidle.settled hs.sound hsecond hfamily')
  · rintro ⟨call, hcall, hanswer | ⟨stored, hstage, hstored⟩⟩ row hrow hfamily hactive
    · have hdead := hs.reusesEnd call hcall familyId hanswer
      exact hidle.settled hs.sound hrow hfamily (hdead.2 row hrow hfamily hactive)
    · obtain ⟨-, hpresents, presented, hpresented, hdescends⟩ :=
        hs.sound.presented call hcall stored (by rw [hstage]; rfl)
      have hfinished := hidle call hcall
        ⟨presented, hpresented, hdescends.familyId.trans hstored, by rw [hdescends.id]; exact hpresents⟩
      rw [hstage] at hfinished
      cases hfinished

/-! ## A small deployment -/

/-- Hashes that can be read, for runs on fixed inputs. -/
def plainDependencies : AuthServiceDependencies where
  hashToken token := toString token.jti
  bcryptHash password salt := s!"{salt}${password}"
  bcryptCompare password hash := decide (∃ salt ∈ List.range 100, hash = s!"{salt}${password}")
  toLowerCase := String.toLower
  meetsPolicy password := decide (8 ≤ password.length)
  refreshExpiresIn := 1000

/-- One user, whose password is `correct horse`. -/
def startState : AuthState where
  store := { users := [{ id := 1, email := "ada@example.com", passwordHash := "0$correct horse" }] }
  nextUuid := 2

theorem startState_fresh : startState.Fresh := ⟨rfl, rfl⟩

/-- A call that is taken to its end before anything else happens. -/
def alone (id : ℕ) (request : AuthRequest) : List AuthEvent :=
  .call id request :: List.replicate 5 (.step id)

/-- A login, and two refreshes with its token that both store a successor before the first claims it. -/
def racingRefreshes : List AuthEvent :=
  let token : RefreshToken := { jti := 2, sub := 1, exp := 1000 }
  alone 0 (.login "ada@example.com" "correct horse") ++
    [.call 1 (.refresh token), .call 2 (.refresh token), .step 1, .step 2, .step 1, .step 2, .step 1,
      .step 2, .step 1, .step 2, .step 2]

/-- One of the two has the session, and its token is the only one left active. -/
theorem rotation_safe_racing :
    let s := startState.run plainDependencies racingRefreshes
    (∃ row ∈ s.tokens, row.familyId = 3 ∧ row.Active) ∧
      ∀ first ∈ s.tokens, ∀ second ∈ s.tokens, first.familyId = 3 → second.familyId = 3 →
        first.Active → second.Active → first = second := by
  intro s
  have hfinished : ∀ call ∈ s.calls, call.stage.finished = true := by decide +kernel
  refine ⟨by decide +kernel, ?_⟩
  exact ((rotation_safe plainDependencies startState startState_fresh racingRefreshes).2 3
    fun call hcall _ => hfinished call hcall).1

end DealFlow360.Auth
