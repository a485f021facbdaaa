import DealFlow360.Otp.OtpService
import DealFlow360.Lib.Claims
import DealFlow360.Lib.Machine

/-!
# Attempts at a challenge

A verification reads the record of the challenge, and writes the whole record
back. The attempts are counted as long as nothing was written in between; the
mark of a used challenge keeps it from being claimed again as long as it lasts.

`Counted` is the invariant: what was compared for a stored challenge is what
its record has counted, plus what calls have compared and not written yet. A
comparison adds one to both sides; the write of an attempt moves one over, if
the record that is written is the one that is stored; and a new challenge
starts from nothing.

- `counted_idle`: the steps that touch neither side;
- `counted_advance` and `counted_step`: the others, under the guard;
- `attempts_bounded`: every interleaving of guarded steps, by the run rule.

Claims are followed with `Lib.Claims`. `attempts_unbounded` has one run for
each guard that is missing in the code.
-/

namespace DealFlow360.Otp

/-! ## Calls under way -/

/-- The challenge for which a wrong attempt is still to be written. -/
def OtpStage.increments : OtpStage → Option Id
  | .incrementing record => some record.id
  | _ => none

/-- The challenge that was claimed and is still to be written as consumed. -/
def OtpStage.claim : OtpStage → Option Id
  | .claimed record => some record.id
  | _ => none

def OtpCall.claim (call : OtpCall) : Option Id := call.stage.claim

namespace OtpState

/-- How many wrong attempts at the challenge are still to be written. -/
def outstanding (s : OtpState) (id : Id) : ℕ :=
  s.calls.countP fun call => call.stage.increments = some id

/-- A challenge is verified once, no more wrong codes are compared with one than its attempts, and no record is
written over that of a newer challenge. -/
structure Bounded (config : OtpConfig) (s : OtpState) : Prop where
  once : s.verified.Nodup
  attempts : ∀ id, s.compared.count id ≤ config.maxAttempts
  newest : ∀ pair ∈ s.overwritten, pair.1 ≤ pair.2

/-- While wrong attempts are still to be written, a wrong code is compared only when they leave one more; an attempt
is written over what was read; a challenge is not claimed when the mark of an earlier claim is gone; it is not
written as consumed over a newer one. -/
def GuardedStage (config : OtpConfig) (s : OtpState) : OtpStage → Prop
  | .verify code => isCode 4 8 (trim code) = true → ∀ record,
      evaluateOtpRecord s.stored (config.hashOtp (trim code)) s.now = .error (.mismatch, some record) →
        0 < s.outstanding record.id → record.attempts + s.outstanding record.id < record.maxAttempts
  | .incrementing record => s.stored = some record ∨ s.stored = none ∧ record.expiresAt ≤ s.now
  | .consuming record => record.id ∈ s.claimed → (Expiring.get s.now record.id s.used).isSome
  | .claimed record => ∀ stored, s.stored = some stored → stored.id ≤ record.id
  | _ => True

def Guarded (config : OtpConfig) (s : OtpState) : OtpEvent → Prop
  | .step id _ => ∀ call, Table.lookup OtpCall.id id s.calls = some call → s.GuardedStage config call.stage
  | _ => True

/-- The wrong code's record, if one is compared. -/
def mismatched (config : OtpConfig) (s : OtpState) (code : String) : Option OtpRecord :=
  match evaluateOtpRecord s.stored (config.hashOtp (trim code)) s.now with
  | .error (.mismatch, record) => record
  | _ => none

theorem mismatched_eq_some {config : OtpConfig} {s : OtpState} {code : String} {record : OtpRecord} :
    s.mismatched config code = some record ↔
      evaluateOtpRecord s.stored (config.hashOtp (trim code)) s.now = .error (.mismatch, some record) := by
  unfold mismatched
  cases evaluateOtpRecord s.stored (config.hashOtp (trim code)) s.now with
  | ok found => exact iff_of_false nofun nofun
  | error failure =>
      obtain ⟨reason, found⟩ := failure
      cases reason with
      | mismatch => simp
      | notFound | expired | consumed | maxAttempts => simp

instance (config : OtpConfig) (s : OtpState) : ∀ stage, Decidable (s.GuardedStage config stage)
  | .verify code => decidable_of_iff (isCode 4 8 (trim code) = true → ∀ record ∈ s.mismatched config code,
      0 < s.outstanding record.id → record.attempts + s.outstanding record.id < record.maxAttempts)
      (forall_congr' fun _ => forall_congr' fun _ => imp_congr_left mismatched_eq_some)
  | .incrementing record => inferInstanceAs (Decidable (s.stored = some record ∨
      s.stored = none ∧ record.expiresAt ≤ s.now))
  | .consuming record => inferInstanceAs (Decidable (record.id ∈ s.claimed →
      (Expiring.get s.now record.id s.used).isSome))
  | .claimed record => inferInstanceAs (Decidable (∀ stored ∈ s.stored, stored.id ≤ record.id))
  | .request .. | .creating .. | .delivering | .deleting | .returned | .threw .. => .isTrue trivial

instance (config : OtpConfig) (s : OtpState) : ∀ event, Decidable (s.Guarded config event)
  | .step id _ => inferInstanceAs (Decidable (∀ call ∈ Table.lookup OtpCall.id id s.calls,
      s.GuardedStage config call.stage))
  | .request .. | .verify .. | .wait .. => .isTrue trivial

end OtpState

/-! ## The invariant -/

/-- A record of a challenge that was created. -/
structure Known (config : OtpConfig) (nextId : Id) (record : OtpRecord) : Prop where
  id_lt : record.id < nextId
  maxAttempts : record.maxAttempts = config.maxAttempts

/-- What a call has read is known, and an attempt is written for a challenge that was not consumed. -/
def Pending (config : OtpConfig) (nextId : Id) : OtpStage → Prop
  | .incrementing record => Known config nextId record ∧ record.consumedAt = none
  | .consuming record | .claimed record => Known config nextId record
  | _ => True

/-- What was compared was counted, or is still to be written. -/
structure Counted (config : OtpConfig) (s : OtpState) : Prop where
  claims : Claims.Held OtpCall.id OtpCall.claim s.claimed s.verified s.calls
  stored : ∀ record, s.stored = some record → Known config s.nextId record
  pending : ∀ call ∈ s.calls, Pending config s.nextId call.stage
  fresh : ∀ id ∈ s.compared, id < s.nextId
  count : ∀ record, s.stored = some record → record.consumedAt = none → s.now < record.expiresAt →
    s.compared.count record.id ≤ record.attempts + s.outstanding record.id
  bound : ∀ id, s.compared.count id ≤ config.maxAttempts
  newest : ∀ pair ∈ s.overwritten, pair.1 ≤ pair.2

section Evaluation

variable {record : Option OtpRecord} {candidateHash : String} {now : Timestamp} {found : OtpRecord}

/-- A wrong code is compared with a record that is stored, not consumed, not expired and has attempts left. -/
theorem evaluate_mismatch
    (h : evaluateOtpRecord record candidateHash now = .error (.mismatch, some found)) :
    record = some found ∧ found.consumedAt = none ∧ now < found.expiresAt ∧ found.attempts < found.maxAttempts := by
  unfold evaluateOtpRecord at h
  cases record with
  | none => cases h
  | some stored =>
      dsimp only at h
      split at h
      · cases h
      · rename_i hconsumed
        split at h
        · cases h
        · rename_i hexpired
          split at h
          · cases h
          · rename_i hattempts
            split at h
            · cases h
              exact ⟨rfl, Option.not_isSome_iff_eq_none.mp hconsumed, Nat.lt_of_not_le hexpired,
                Nat.lt_of_not_le hattempts⟩
            · cases h

theorem evaluate_ok (h : evaluateOtpRecord record candidateHash now = .ok found) : record = some found := by
  unfold evaluateOtpRecord at h
  cases record with
  | none => cases h
  | some stored =>
      dsimp only at h
      split at h
      · cases h
      · split at h
        · cases h
        · split at h
          · cases h
          · split at h
            · cases h
            · rw [Except.ok.inj h]

end Evaluation

section Steps

variable {config : OtpConfig} {s : OtpState} {call : OtpCall} {stage : OtpStage} {fails : Bool}

theorem stored_save (s : OtpState) (record : OtpRecord) : (s.save record).stored = some record :=
  Expiring.get_set_self (Nat.lt_add_of_pos_right (Nat.lt_of_lt_of_le Nat.zero_lt_one (le_max_left 1 _)))

theorem pending_mono {nextId nextId' : Id} (hnext : nextId ≤ nextId') (h : Pending config nextId stage) :
    Pending config nextId' stage := by
  have hknown (record : OtpRecord) (h : Known config nextId record) : Known config nextId' record :=
    ⟨h.id_lt.trans_le hnext, h.maxAttempts⟩
  cases stage with
  | incrementing record => exact ⟨hknown record h.1, h.2⟩
  | consuming record | claimed record => exact hknown record h
  | request | creating | delivering | deleting | verify | returned | threw => trivial

/-- The attempts still to be written, after a call has come to another stage. -/
theorem outstanding_upsert (hcall : Table.lookup OtpCall.id call.id s.calls = some call) (stage : OtpStage)
    (id : Id) :
    (Table.upsert OtpCall.id { call with stage } s.calls).countP (fun call => call.stage.increments = some id) +
        (if call.stage.increments = some id then 1 else 0) =
      s.outstanding id + if stage.increments = some id then 1 else 0 := by
  have h := @Table.countP_upsert _ _ _ OtpCall.id (fun call : OtpCall => call.stage.increments = some id)
    { call with stage } _ _ hcall
  simpa [OtpState.outstanding] using h

/-- What a step has to keep: the stored record is known and its comparisons are counted, up to what the call
itself has written or still has to. -/
theorem counted_of (hs : Counted config s) (hcall : Table.lookup OtpCall.id call.id s.calls = some call)
    {next : OtpState × OtpStage}
    (hclaims : Claims.Move s.claimed s.verified call.claim next.1.claimed next.1.verified next.2.claim)
    (hnext : s.nextId ≤ next.1.nextId)
    (hstored : ∀ record, next.1.stored = some record → Known config next.1.nextId record)
    (hpending : Pending config next.1.nextId next.2)
    (hcompared : ∀ id ∈ next.1.compared, id < next.1.nextId)
    (hcount : ∀ record, next.1.stored = some record → record.consumedAt = none →
      next.1.now < record.expiresAt →
        next.1.compared.count record.id + (if call.stage.increments = some record.id then 1 else 0) ≤
          record.attempts + s.outstanding record.id + if next.2.increments = some record.id then 1 else 0)
    (hbound : ∀ id, next.1.compared.count id ≤ config.maxAttempts)
    (hnewest : ∀ pair ∈ next.1.overwritten, pair.1 ≤ pair.2) :
    Counted config { next.1 with calls := Table.upsert OtpCall.id { call with stage := next.2 } s.calls } where
  claims := hs.claims.move (Table.mem_of_lookup hcall) rfl hclaims
  stored := hstored
  pending other hother := by
    rcases Table.mem_upsert hother with rfl | hother
    · exact hpending
    · exact pending_mono hnext (hs.pending other hother)
  fresh := hcompared
  count record hrecord hopen hlive := by
    have hall := hcount record hrecord hopen hlive
    have hmoved := outstanding_upsert hcall next.2 record.id
    show next.1.compared.count record.id ≤ record.attempts +
      (Table.upsert OtpCall.id { call with stage := next.2 } s.calls).countP _
    omega
  bound := hbound
  newest := hnewest

/-- A step that leaves the stored record, the comparisons and the attempts still to be written. -/
theorem counted_idle (hs : Counted config s) (hcall : Table.lookup OtpCall.id call.id s.calls = some call)
    {next : OtpState × OtpStage}
    (hclaims : Claims.Move s.claimed s.verified call.claim next.1.claimed next.1.verified next.2.claim)
    (hnext : next.1.nextId = s.nextId) (hstored : next.1.stored = s.stored) (hnow : next.1.now = s.now)
    (hcompared : next.1.compared = s.compared) (hoverwritten : next.1.overwritten = s.overwritten)
    (hpending : Pending config next.1.nextId next.2) (hbefore : call.stage.increments = none)
    (hafter : next.2.increments = none) :
    Counted config { next.1 with calls := Table.upsert OtpCall.id { call with stage := next.2 } s.calls } := by
  refine counted_of hs hcall hclaims hnext.ge ?_ hpending ?_ ?_ ?_ ?_
  · intro record hrecord
    rw [hstored] at hrecord
    obtain ⟨hlt, hmax⟩ := hs.stored record hrecord
    exact ⟨hnext ▸ hlt, hmax⟩
  · rw [hcompared, hnext]
    exact hs.fresh
  · intro record hrecord hopen hlive
    rw [hstored] at hrecord
    rw [hnow] at hlive
    rw [hcompared, hbefore, hafter]
    exact hs.count record hrecord hopen hlive
  · rw [hcompared]
    exact hs.bound
  · rw [hoverwritten]
    exact hs.newest

/-- A record is written over what is stored, which is not newer. -/
theorem newest_save (hs : Counted config s) {record : OtpRecord}
    (hnewest : ∀ stored, s.stored = some stored → stored.id ≤ record.id) :
    ∀ pair ∈ (s.save record).overwritten, pair.1 ≤ pair.2 := by
  intro pair hpair
  rcases List.mem_append.mp hpair with hpair | hpair
  · exact hs.newest pair hpair
  · cases hstored : s.stored with
    | none =>
        rw [hstored] at hpair
        cases hpair
    | some stored =>
        rw [hstored] at hpair
        cases List.mem_singleton.mp hpair
        exact hnewest stored hstored

theorem counted_advance (hs : Counted config s) (hcall : Table.lookup OtpCall.id call.id s.calls = some call)
    (hguard : s.GuardedStage config call.stage) :
    Counted config { (s.advance config fails call.stage).1 with
      calls := Table.upsert OtpCall.id { call with stage := (s.advance config fails call.stage).2 } s.calls } := by
  have hpending := hs.pending call (Table.mem_of_lookup hcall)
  have hidle (stage : OtpStage) (hbefore : call.stage.increments = none) (hstage : Pending config s.nextId stage)
      (hafter : stage.increments = none) (hclaim : stage.claim = none) :
      Counted config { s with calls := Table.upsert OtpCall.id { call with stage } s.calls } :=
    @counted_idle _ _ _ hs hcall (s, stage) (hclaim ▸ .idle) rfl rfl rfl rfl rfl hstage hbefore hafter
  cases hstage : call.stage with
  | request code =>
      have hbefore : call.stage.increments = none := by rw [hstage]; rfl
      unfold OtpState.advance
      dsimp only
      split
      · exact hidle _ hbefore trivial rfl rfl
      · split
        · exact hidle _ hbefore trivial rfl rfl
        · exact hidle _ hbefore trivial rfl rfl
  | creating code =>
      have hbefore : call.stage.increments = none := by rw [hstage]; rfl
      have hnew : s.compared.count s.nextId = 0 :=
        List.count_eq_zero.mpr fun hmem => (hs.fresh s.nextId hmem).false
      refine @counted_of _ _ _ hs hcall (s.advance config fails (.creating code)) .idle (Nat.le_succ _) ?_ trivial
        ?_ ?_ hs.bound ?_
      · intro record hrecord
        cases (stored_save s (s.newRecord config code)).symm.trans hrecord
        exact ⟨Nat.lt_succ_self _, rfl⟩
      · exact fun id hid => (hs.fresh id hid).trans (Nat.lt_succ_self _)
      · intro record hrecord _ _
        cases (stored_save s (s.newRecord config code)).symm.trans hrecord
        rw [hbefore]
        show s.compared.count s.nextId + 0 ≤ 0 + s.outstanding s.nextId + 0
        omega
      · exact newest_save hs fun stored hstored => (hs.stored stored hstored).id_lt.le
  | delivering =>
      have hbefore : call.stage.increments = none := by rw [hstage]; rfl
      unfold OtpState.advance
      dsimp only
      cases fails with
      | false => exact hidle .returned hbefore trivial rfl rfl
      | true => exact hidle .deleting hbefore trivial rfl rfl
  | deleting =>
      have hnone : ({ s with challenge := Expiring.del () s.challenge } : OtpState).stored = none :=
        Expiring.get_del_self
      refine @counted_of _ _ _ hs hcall (s.advance config fails .deleting) .idle (le_refl _) ?_ trivial hs.fresh ?_
        hs.bound hs.newest
      · intro record hrecord
        cases hnone.symm.trans hrecord
      · intro record hrecord
        cases hnone.symm.trans hrecord
  | verify code =>
      have hbefore : call.stage.increments = none := by rw [hstage]; rfl
      unfold OtpState.advance
      dsimp only
      split
      · exact hidle _ hbefore trivial rfl rfl
      · rename_i hcode
        rw [hstage] at hguard
        have hcode' : isCode 4 8 (trim code) = true := by simpa using hcode
        split
        · rename_i record hrecord
          exact hidle (.consuming record) hbefore (hs.stored record (evaluate_ok hrecord)) rfl rfl
        · rename_i record hmismatch
          obtain ⟨hstored, hopen, hlive, hleft⟩ := evaluate_mismatch hmismatch
          have hknown := hs.stored record hstored
          -- with nothing still to be written, the check of maxAttempts is the room
          have hroom : record.attempts + s.outstanding record.id < record.maxAttempts := by
            rcases Nat.eq_zero_or_pos (s.outstanding record.id) with hnone | hsome
            · rw [hnone]
              exact hleft
            · exact hguard hcode' record hmismatch hsome
          have hcounted (id : Id) : (s.compared ++ [record.id]).count id =
              s.compared.count id + if record.id = id then 1 else 0 := by
            rw [List.count_append, List.count_singleton]
            simp only [beq_iff_eq]
          refine @counted_of _ _ _ hs hcall ({ s with compared := s.compared ++ [record.id] }, .incrementing record)
            .idle (le_refl _) hs.stored ⟨hknown, hopen⟩ ?_ ?_ ?_ hs.newest
          · intro id hid
            rcases List.mem_append.mp hid with hid | hid
            · exact hs.fresh id hid
            · rw [List.mem_singleton.mp hid]
              exact hknown.id_lt
          · intro other hother hother' hlive
            have hsame : record = other := Option.some.inj (hstored.symm.trans hother)
            subst hsame
            have hcount := hs.count record hother hother' hlive
            show (s.compared ++ [record.id]).count record.id + _ ≤ record.attempts + s.outstanding record.id +
              if some record.id = some record.id then 1 else 0
            rw [hcounted, hbefore, if_pos rfl, if_pos rfl, if_neg (Option.some_ne_none record.id).symm]
            omega
          · intro id
            show (s.compared ++ [record.id]).count id ≤ config.maxAttempts
            rw [hcounted]
            by_cases hid : record.id = id
            · rw [if_pos hid, ← hid]
              have hcount := hs.count record hstored hopen hlive
              rw [hknown.maxAttempts] at hroom
              omega
            · rw [if_neg hid]
              exact hs.bound id
        · exact hidle _ hbefore trivial rfl rfl
  | incrementing record =>
      rw [hstage] at hguard hpending
      obtain ⟨hknown, hopen⟩ := hpending
      have hwritten := stored_save s { record with attempts := record.attempts + 1 }
      refine @counted_of _ _ _ hs hcall (s.advance config fails (.incrementing record)) .idle (le_refl _) ?_ trivial
        hs.fresh ?_ hs.bound ?_
      · intro other hother
        cases hwritten.symm.trans hother
        exact ⟨hknown.id_lt, hknown.maxAttempts⟩
      · intro other hother _ hlive
        cases hwritten.symm.trans hother
        rcases hguard with hstored | ⟨-, hexpired⟩
        · have hcount := hs.count record hstored hopen hlive
          rw [hstage]
          show s.compared.count record.id + (if some record.id = some record.id then 1 else 0) ≤
            record.attempts + 1 + s.outstanding record.id + 0
          rw [if_pos rfl]
          omega
        · exact absurd hlive (Nat.not_lt_of_le hexpired)
      · refine newest_save hs fun stored hstored => ?_
        rcases hguard with hsame | ⟨hnone, -⟩
        · rw [Option.some.inj (hstored.symm.trans hsame)]
        · cases hnone.symm.trans hstored
  | consuming record =>
      rw [hstage] at hguard hpending
      have hbefore : call.stage.increments = none := by rw [hstage]; rfl
      unfold OtpState.advance
      dsimp only
      split
      · exact hidle _ hbefore trivial rfl rfl
      · rename_i used hclaimed
        have hnone := Expiring.get_of_setNx (congrArg Prod.fst hclaimed)
        refine @counted_idle _ _ _ hs hcall ({ s with used, claimed := s.claimed ++ [record.id] }, .claimed record)
          (.takes fun htaken => ?_) rfl rfl rfl rfl rfl hpending hbefore rfl
        have hmarked := hguard htaken
        rw [hnone] at hmarked
        cases hmarked
  | claimed record =>
      rw [hstage] at hguard hpending
      have hbefore : call.stage.increments = none := by rw [hstage]; rfl
      have hclaim : call.claim = some record.id := by
        unfold OtpCall.claim
        rw [hstage]
        rfl
      have hwritten := stored_save s { record with consumedAt := some s.now }
      refine @counted_of _ _ _ hs hcall (s.advance config fails (.claimed record)) (.finishes hclaim) (le_refl _) ?_
        trivial hs.fresh ?_ hs.bound ?_
      · intro other hother
        cases hwritten.symm.trans hother
        exact ⟨hpending.id_lt, hpending.maxAttempts⟩
      · intro other hother hconsumed _
        cases hwritten.symm.trans hother
        cases hconsumed
      · exact newest_save hs hguard
  | returned => exact hidle .returned (by rw [hstage]; rfl) trivial rfl rfl
  | threw error => exact hidle (.threw error) (by rw [hstage]; rfl) trivial rfl rfl

theorem counted_begin (hs : Counted config s) {id : Id} (hincrements : stage.increments = none)
    (hclaim : stage.claim = none) (hpending : Pending config s.nextId stage) : Counted config (s.begin id stage) := by
  unfold OtpState.begin
  split
  · rename_i hnew
    refine ⟨hs.claims.upsert_idle hclaim, hs.stored, ?_, hs.fresh, ?_, hs.bound, hs.newest⟩
    · intro other hother
      rcases Table.mem_upsert hother with rfl | hother
      · exact hpending
      · exact hs.pending other hother
    · intro record hrecord hopen hlive
      have hsame := @Table.countP_upsert_of_none _ _ _ OtpCall.id
        (fun call : OtpCall => call.stage.increments = some record.id) { id, stage } _ hnew
      have hcount := hs.count record hrecord hopen hlive
      rw [hincrements, if_neg (by simp), Nat.add_zero] at hsame
      show s.compared.count record.id ≤ record.attempts +
        (Table.upsert OtpCall.id { id, stage } s.calls).countP _
      rw [hsame]
      exact hcount
  · exact hs

theorem counted_step {event : OtpEvent} (hs : Counted config s) (hguard : s.Guarded config event) :
    Counted config (s.step config event) := by
  cases event with
  | request id code => exact counted_begin hs rfl rfl trivial
  | verify id code => exact counted_begin hs rfl rfl trivial
  | step id fails =>
      unfold OtpState.step
      dsimp only
      split
      · exact hs
      · rename_i call hcall
        have hown : Table.lookup OtpCall.id call.id s.calls = some call := by
          rw [Table.key_of_lookup hcall]
          exact hcall
        exact counted_advance hs hown (hguard call hcall)
  | wait milliseconds =>
      have hlater (record : OtpRecord)
          (h : ({ s with now := s.now + milliseconds } : OtpState).stored = some record) :
          s.stored = some record := Expiring.get_of_later (Nat.le_add_right _ _) h
      refine ⟨hs.claims, fun record hrecord => hs.stored record (hlater record hrecord), hs.pending, hs.fresh, ?_,
        hs.bound, hs.newest⟩
      intro record hrecord hopen hlive
      exact hs.count record (hlater record hrecord) hopen ((Nat.le_add_right _ _).trans_lt hlive)

/-- In every run whose steps are guarded, a challenge is verified at most once, at most `maxAttempts` wrong codes
are compared with it, and its record is not written over that of a newer one. -/
theorem attempts_bounded (config : OtpConfig) (events : List OtpEvent)
    (hguarded : Machine.Meets (OtpState.step config) (OtpState.Guarded config) {} events) :
    (Machine.run (OtpState.step config) {} events).Bounded config := by
  have hempty : Counted config {} := by
    refine ⟨Claims.held_nil, nofun, ?_, ?_, nofun, ?_, ?_⟩
    · exact fun _ h => absurd h List.not_mem_nil
    · exact fun _ h => absurd h List.not_mem_nil
    · exact fun _ => Nat.zero_le _
    · exact fun _ h => absurd h List.not_mem_nil
  have hcounted := Machine.invariant_of_meets (I := Counted config) (fun _ _ => counted_step) hempty hguarded
  exact ⟨hcounted.claims.nodup, hcounted.bound, hcounted.newest⟩

end Steps

/-- Two attempts within a minute; the hash is the code itself. -/
def twoAttempts : OtpConfig where
  digits := 6
  ttlMs := 60000
  maxAttempts := 2
  resendCooldownMs := 30000
  hashOtp := id

/-- A call and its steps. -/
def requested (id : Id) : List OtpEvent :=
  [.request id "111111", .step id false, .step id false, .step id false]

def verifying (id : Id) (code : String) (steps : ℕ) : List OtpEvent :=
  .verify id code :: List.replicate steps (.step id false)

/-- A wrong code, then the right one. -/
def secondTry : List OtpEvent := requested 0 ++ verifying 1 "222222" 2 ++ verifying 2 "111111" 3

theorem second_try_bounded :
    (Machine.run (OtpState.step twoAttempts) {} secondTry).verified = [0] ∧
      (Machine.run (OtpState.step twoAttempts) {} secondTry).Bounded twoAttempts :=
  ⟨by decide, attempts_bounded twoAttempts secondTry (by decide)⟩

/-- Three wrong codes are compared before the first attempt is written. -/
def parallelGuesses : List OtpEvent :=
  requested 0 ++ verifying 1 "222222" 1 ++ verifying 2 "333333" 1 ++ verifying 3 "444444" 1

/-- A wrong attempt is written when a new challenge has been created. -/
def lateAttempt : List OtpEvent :=
  requested 0 ++ verifying 1 "222222" 1 ++ [.wait 30000] ++ requested 2 ++ [.step 1 false]

/-- Two verifications read the challenge; the second claims it when the mark of the first has expired with it. -/
def lateClaim : List OtpEvent :=
  requested 0 ++ verifying 1 "111111" 1 ++ verifying 2 "111111" 1 ++ [.step 1 false, .step 1 false, .wait 60000] ++
    [.step 2 false, .step 2 false]

/-- Three codes are compared for two attempts, the old record replaces the new one, and a challenge is verified
twice. -/
theorem attempts_unbounded :
    ¬ (Machine.run (OtpState.step twoAttempts) {} parallelGuesses).Bounded twoAttempts ∧
      ¬ (Machine.run (OtpState.step twoAttempts) {} lateAttempt).Bounded twoAttempts ∧
      ¬ (Machine.run (OtpState.step twoAttempts) {} lateClaim).Bounded twoAttempts := by
  refine ⟨fun h => ?_, fun h => ?_, fun h => ?_⟩
  · exact absurd (h.attempts 0) (by decide)
  · exact absurd h.newest (by decide)
  · exact absurd h.once (by decide)

end DealFlow360.Otp
