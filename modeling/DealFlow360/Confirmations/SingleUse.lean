import DealFlow360.Confirmations.ConfirmationStore
import DealFlow360.Lib.Machine

/-!
# Confirmations are taken once

A take claims the command it has read by a key that ends with the command. A
take that read the command before and claims it after that claims it again. And
a take deletes what is stored under its key when it gets there, be it a command
saved since.

The invariant follows what each call holds: a take between its read and its
claim, a take between its claim and its delete. What is claimed has a claim
key, for as long as the command lives.

- `bound_claim`: a call claims a command nobody has claimed;
- `bound_delete`: a call deletes nothing that is pending;
- `confirmations_single_use`: in every interleaving of saves, takes and clears,
  with any time passing, whose steps meet these two conditions, a command is
  taken at most once, and one that is pending is still taken by the next take.

`taken_twice_or_lost` has a run for each condition.
-/

namespace DealFlow360.Confirmations

/-! ## What is claimed -/

/-- The command a call has read. -/
def TakeStage.record : TakeStage → Option PendingCommand
  | .checking raw => raw
  | .claiming record _ | .deleting record => some record
  | .returned record => record
  | .reading => none

/-- The command a call has found to be its user's. -/
def TakeStage.checked : TakeStage → Option PendingCommand
  | .claiming record _ | .deleting record => some record
  | .returned record => record
  | .reading | .checking _ => none

def TakeStage.claimed : TakeStage → Option PendingCommand
  | .deleting record => some record
  | .returned record => record
  | .reading | .checking _ | .claiming _ _ => none

namespace ConfirmationState

variable (store : ConfirmationStore) (s : ConfirmationState)

def Claimed (token : Id) : Prop :=
  ∃ call ∈ s.calls, ∃ record ∈ call.stage.claimed, record.token = token

instance (token : Id) : Decidable (s.Claimed token) :=
  inferInstanceAs (Decidable (∃ call ∈ s.calls, ∃ record ∈ call.stage.claimed, record.token = token))

/-- The command is returned if its user takes it now. -/
def Takeable (record : PendingCommand) : Prop :=
  ∀ id, Table.lookup TakeCall.id id s.calls = none →
    Table.lookup TakeCall.id id (Machine.run (ConfirmationState.step store) s
        [.take id (store.dataKey record) record.userId, .step id, .step id, .step id, .step id]).calls =
      some { id, key := store.dataKey record, userId := record.userId, stage := .returned (some record) }

/-- A command is returned once at most, to the user who saved it, and until it is claimed, cleared, replaced or
expired its user can take it. -/
structure SingleUse : Prop where
  once : ∀ call ∈ s.calls, ∀ other ∈ s.calls, ∀ record found, call.stage = .returned (some record) →
    other.stage = .returned (some found) → record.token = found.token → call.id = other.id
  own : ∀ call ∈ s.calls, ∀ record, call.stage = .returned (some record) →
    record ∈ s.saved ∧ record.userId = call.userId
  kept : ∀ record ∈ s.pending, s.now < record.expiresAt → s.Takeable store record

/-- A command that was claimed before is claimed before that claim ends; nothing but claimed commands is deleted. -/
def GuardedStep (call : TakeCall) : TakeStage → Prop
  | .claiming record _ => s.Claimed record.token →
      (Expiring.get s.now (store.usedKey call.key record) s.used).isSome = true
  | .deleting _ => ∀ other ∈ Expiring.get s.now call.key s.data, s.Claimed other.token
  | .reading | .checking _ | .returned _ => True

def Guarded : ConfirmationEvent → Prop
  | .step id => ∀ call ∈ Table.lookup TakeCall.id id s.calls, s.GuardedStep store call call.stage
  | .save .. | .take .. | .clear _ | .wait _ => True

instance (call : TakeCall) : ∀ stage, Decidable (s.GuardedStep store call stage)
  | .claiming record _ => inferInstanceAs (Decidable (s.Claimed record.token →
      (Expiring.get s.now (store.usedKey call.key record) s.used).isSome = true))
  | .deleting _ => inferInstanceAs (Decidable (∀ other ∈ Expiring.get s.now call.key s.data, s.Claimed other.token))
  | .reading | .checking _ | .returned _ => .isTrue trivial

instance : ∀ event, Decidable (s.Guarded store event)
  | .step id => inferInstanceAs (Decidable (∀ call ∈ Table.lookup TakeCall.id id s.calls,
      s.GuardedStep store call call.stage))
  | .save .. | .take .. | .clear _ | .wait _ => .isTrue trivial

end ConfirmationState

/-- What is stored was saved, and a command is claimed by one call. What is pending is not claimed, and is read
under its key until it expires. -/
structure Bound (store : ConfirmationStore) (s : ConfirmationState) : Prop where
  distinct : Table.Distinct TakeCall.id s.calls
  fresh : ∀ record ∈ s.saved, record.token < s.nextToken
  data : ∀ entry ∈ s.data, entry.value ∈ s.saved ∧ store.dataKey entry.value = entry.key
  read : ∀ call ∈ s.calls, ∀ record, call.stage.record = some record →
    record ∈ s.saved ∧ store.dataKey record = call.key
  own : ∀ call ∈ s.calls, ∀ record, call.stage.checked = some record → record.userId = call.userId
  once : ∀ call ∈ s.calls, ∀ other ∈ s.calls, ∀ record found, call.stage.claimed = some record →
    other.stage.claimed = some found → record.token = found.token → call.id = other.id
  pending : ∀ record ∈ s.pending, record ∈ s.saved ∧ ¬ s.Claimed record.token
  kept : ∀ record ∈ s.pending, ∀ later, s.now ≤ later → later < record.expiresAt →
    Expiring.get later (store.dataKey record) s.data = some record
  used : ∀ entry ∈ s.used, s.Claimed entry.key

section Steps

variable {store : ConfirmationStore} {s : ConfirmationState} {call : TakeCall} {stage : TakeStage}

theorem claimed_of_record {stage : TakeStage} {record : PendingCommand} (h : stage.claimed = some record) :
    stage.record = some record := by
  cases stage with
  | deleting found => exact h
  | returned found => exact h
  | reading | checking | claiming => cases h

theorem checked_of_claimed {stage : TakeStage} {record : PendingCommand} (h : stage.claimed = some record) :
    stage.checked = some record := by
  cases stage with
  | deleting found => exact h
  | returned found => exact h
  | reading | checking | claiming => cases h

theorem mem_calls (hs : Table.Distinct TakeCall.id s.calls) {other : TakeCall} :
    other ∈ Table.upsert TakeCall.id { call with stage } s.calls ↔
      other = { call with stage } ∨ other ∈ s.calls ∧ other.id ≠ call.id :=
  Table.mem_upsert_iff hs

/-- A step that keeps what the call has claimed keeps what is claimed. -/
theorem claimed_quiet (hs : Table.Distinct TakeCall.id s.calls) (hcall : call ∈ s.calls)
    (hclaimed : stage.claimed = call.stage.claimed) (token : Id) :
    (∃ other ∈ Table.upsert TakeCall.id { call with stage } s.calls,
      ∃ record ∈ other.stage.claimed, record.token = token) ↔ s.Claimed token := by
  constructor
  · rintro ⟨other, hother, record, hrecord, htoken⟩
    rcases (mem_calls hs).mp hother with rfl | ⟨hother, -⟩
    · exact ⟨call, hcall, record, hclaimed ▸ hrecord, htoken⟩
    · exact ⟨other, hother, record, hrecord, htoken⟩
  · rintro ⟨other, hother, record, hrecord, htoken⟩
    by_cases hid : other.id = call.id
    · have heq : other = call := List.inj_on_of_nodup_map hs hother hcall hid
      subst heq
      exact ⟨_, (mem_calls hs).mpr (.inl rfl), record, hclaimed.symm ▸ hrecord, htoken⟩
    · exact ⟨other, (mem_calls hs).mpr (.inr ⟨hother, hid⟩), record, hrecord, htoken⟩

/-- A step of a call that neither claims nor deletes. -/
theorem bound_quiet (hs : Bound store s) (hcall : call ∈ s.calls)
    (hclaimed : stage.claimed = call.stage.claimed)
    (hread : ∀ record, stage.record = some record → record ∈ s.saved ∧ store.dataKey record = call.key)
    (hown : ∀ record, stage.checked = some record → record.userId = call.userId) :
    Bound store { s with calls := Table.upsert TakeCall.id { call with stage } s.calls } := by
  have hsame := claimed_quiet hs.distinct hcall hclaimed
  refine ⟨Table.distinct_upsert hs.distinct _, hs.fresh, hs.data, ?_, ?_, ?_, ?_, hs.kept, ?_⟩
  · intro other hother record hrecord
    rcases (mem_calls hs.distinct).mp hother with rfl | ⟨hother, -⟩
    · exact hread record hrecord
    · exact hs.read other hother record hrecord
  · intro other hother record hrecord
    rcases (mem_calls hs.distinct).mp hother with rfl | ⟨hother, -⟩
    · exact hown record hrecord
    · exact hs.own other hother record hrecord
  · intro first hfirst second hsecond record found hrecord hfound htoken
    rcases (mem_calls hs.distinct).mp hfirst with rfl | ⟨hfirst, -⟩
    · rcases (mem_calls hs.distinct).mp hsecond with rfl | ⟨hsecond, -⟩
      · rfl
      · exact hs.once call hcall second hsecond record found (hclaimed ▸ hrecord) hfound htoken
    · rcases (mem_calls hs.distinct).mp hsecond with rfl | ⟨hsecond, -⟩
      · exact hs.once first hfirst call hcall record found hrecord (hclaimed ▸ hfound) htoken
      · exact hs.once first hfirst second hsecond record found hrecord hfound htoken
  · intro record hrecord
    exact ⟨(hs.pending record hrecord).1, fun h => (hs.pending record hrecord).2 ((hsame record.token).mp h)⟩
  · intro entry hentry
    exact (hsame entry.key).mpr (hs.used entry hentry)

theorem usedKey_eq {key : Id} {record : PendingCommand} (h : store.dataKey record = key) :
    store.usedKey key record = record.token := by
  cases store with
  | intents => exact h.symm
  | copilot => rfl

/-- A call claims a command nobody has claimed. -/
theorem bound_claim (hs : Bound store s) (hcall : call ∈ s.calls) {record : PendingCommand} {remainingMs : ℕ}
    (hstage : call.stage = .claiming record remainingMs) (hunclaimed : ¬ s.Claimed record.token) (ttl : ℕ) :
    Bound store
      { s with
        used := Expiring.set s.now record.token () ttl s.used
        pending := s.pending.filter fun other => other.token ≠ record.token
        calls := Table.upsert TakeCall.id { call with stage := .deleting record } s.calls } := by
  have hrecord : call.stage.record = some record := by rw [hstage]; rfl
  have hchecked : call.stage.checked = some record := by rw [hstage]; rfl
  have hmem {other : TakeCall} := @mem_calls _ call (.deleting record) hs.distinct other
  -- the calls of before have claimed other commands
  have hapart {other : TakeCall} (hother : other ∈ s.calls) {found : PendingCommand}
      (hfound : other.stage.claimed = some found) : record.token ≠ found.token :=
    fun htoken => hunclaimed ⟨other, hother, found, hfound, htoken.symm⟩
  have hold {token : Id} (h : s.Claimed token) :
      ∃ other ∈ Table.upsert TakeCall.id { call with stage := .deleting record } s.calls,
        ∃ found ∈ other.stage.claimed, found.token = token := by
    obtain ⟨other, hother, found, hfound, htoken⟩ := h
    refine ⟨other, hmem.mpr (.inr ⟨hother, fun hid => ?_⟩), found, hfound, htoken⟩
    have heq : other = call := List.inj_on_of_nodup_map hs.distinct hother hcall hid
    rw [heq, hstage] at hfound
    cases hfound
  refine ⟨Table.distinct_upsert hs.distinct _, hs.fresh, hs.data, ?_, ?_, ?_, ?_, ?_, ?_⟩
  · intro other hother found hfound
    rcases hmem.mp hother with rfl | ⟨hother, -⟩
    · cases hfound
      exact hs.read call hcall record hrecord
    · exact hs.read other hother found hfound
  · intro other hother found hfound
    rcases hmem.mp hother with rfl | ⟨hother, -⟩
    · cases hfound
      exact hs.own call hcall record hchecked
    · exact hs.own other hother found hfound
  · intro first hfirst second hsecond found found' hfound hfound' htoken
    rcases hmem.mp hfirst with rfl | ⟨hfirst, -⟩
    · cases hfound
      rcases hmem.mp hsecond with rfl | ⟨hsecond, -⟩
      · rfl
      · exact absurd htoken (hapart hsecond hfound')
    · rcases hmem.mp hsecond with rfl | ⟨hsecond, -⟩
      · cases hfound'
        exact absurd htoken.symm (hapart hfirst hfound)
      · exact hs.once first hfirst second hsecond found found' hfound hfound' htoken
  · intro other hother
    obtain ⟨hother, hne⟩ := List.mem_filter.mp hother
    obtain ⟨hsaved, hnot⟩ := hs.pending other hother
    refine ⟨hsaved, ?_⟩
    rintro ⟨taker, htaker, found, hfound, htoken⟩
    rcases hmem.mp htaker with rfl | ⟨htaker, -⟩
    · cases hfound
      exact of_decide_eq_true hne htoken.symm
    · exact hnot ⟨taker, htaker, found, hfound, htoken⟩
  · intro other hother
    exact hs.kept other (List.mem_filter.mp hother).1
  · intro entry hentry
    rcases Table.mem_upsert hentry with rfl | hentry
    · exact ⟨_, hmem.mpr (.inl rfl), record, rfl, rfl⟩
    · exact hold (hs.used entry hentry)

/-- A call deletes what stands under its key, which is nothing that is pending. -/
theorem bound_delete (hs : Bound store s) (hcall : call ∈ s.calls) {record : PendingCommand}
    (hstage : call.stage = .deleting record)
    (hguard : ∀ other ∈ Expiring.get s.now call.key s.data, s.Claimed other.token) :
    Bound store
      { s with
        data := Expiring.del call.key s.data
        calls := Table.upsert TakeCall.id { call with stage := .returned (some record) } s.calls } := by
  have hquiet : Bound store
      { s with calls := Table.upsert TakeCall.id { call with stage := .returned (some record) } s.calls } := by
    refine bound_quiet hs hcall (by rw [hstage]; rfl) ?_ ?_
    · intro found hfound
      cases hfound
      exact hs.read call hcall record (by rw [hstage]; rfl)
    · intro found hfound
      cases hfound
      exact hs.own call hcall record (by rw [hstage]; rfl)
  refine ⟨hquiet.distinct, hquiet.fresh, ?_, hquiet.read, hquiet.own, hquiet.once, hquiet.pending, ?_, hquiet.used⟩
  · intro entry hentry
    exact hs.data entry (Table.mem_erase.mp hentry).1
  · intro other hother later hlater hexpires
    have hkept := hs.kept other hother later hlater hexpires
    by_cases hkey : call.key = store.dataKey other
    · have hnow := hs.kept other hother s.now le_rfl (hlater.trans_lt hexpires)
      rw [← hkey] at hnow
      exact absurd (hguard other hnow) (hs.pending other hother).2
    · show Expiring.get later _ (Expiring.del call.key s.data) = _
      rw [Expiring.get_del_of_ne hkey]
      exact hkept

theorem absurd_none {α : Type*} {x : α} {P : Prop} (h : none = some x) : P :=
  absurd h.symm (Option.some_ne_none x)

theorem bound_advance (hs : Bound store s) (hcall : call ∈ s.calls)
    (hguard : s.GuardedStep store call call.stage) :
    Bound store { (s.advance store call).1 with
      calls := Table.upsert TakeCall.id { call with stage := (s.advance store call).2 } s.calls } := by
  unfold ConfirmationState.advance
  cases hstage : call.stage with
  | reading =>
      refine bound_quiet hs hcall (by rw [hstage]; rfl) ?_ fun _ => absurd_none
      intro record hrecord
      obtain ⟨entry, hentry, hvalue⟩ := Option.map_eq_some_iff.mp hrecord
      have hlookup := (Option.filter_eq_some_iff.mp hentry).1
      obtain ⟨hsaved, hkey⟩ := hs.data entry (Table.mem_of_lookup hlookup)
      rw [Table.key_of_lookup hlookup, hvalue] at hkey
      exact ⟨hvalue ▸ hsaved, hkey⟩
  | checking raw =>
      cases raw with
      | none => exact bound_quiet hs hcall (by rw [hstage]; rfl) (fun _ => absurd_none) fun _ => absurd_none
      | some record =>
          have hread := hs.read call hcall record (by rw [hstage]; rfl)
          dsimp only
          split
          · exact bound_quiet hs hcall (by rw [hstage]; rfl) (fun _ => absurd_none) fun _ => absurd_none
          · rename_i hpasses
            refine bound_quiet hs hcall (by rw [hstage]; rfl) ?_ ?_
            · intro found hfound
              cases hfound
              exact hread
            · intro found hfound
              cases hfound
              by_contra hne
              exact hpasses (.inl hne)
  | claiming record remainingMs =>
      obtain ⟨hsaved, hkey⟩ := hs.read call hcall record (by rw [hstage]; rfl)
      rw [hstage] at hguard
      unfold ConfirmationState.GuardedStep at hguard
      dsimp only at hguard
      rw [usedKey_eq hkey] at hguard
      dsimp only
      rw [usedKey_eq hkey]
      unfold Expiring.setNx
      by_cases hfound : (Expiring.get s.now record.token s.used).isSome = true
      · rw [if_pos hfound]
        exact bound_quiet hs hcall (by rw [hstage]; rfl) (fun _ => absurd_none) fun _ => absurd_none
      · rw [if_neg hfound]
        exact bound_claim hs hcall hstage (fun h => hfound (hguard h)) remainingMs
  | deleting record =>
      rw [hstage] at hguard
      exact bound_delete hs hcall hstage hguard
  | returned record =>
      refine bound_quiet hs hcall (by rw [hstage]) ?_ ?_
      · intro found hfound
        have hrecord : call.stage.record = some found := hstage.symm ▸ hfound
        exact hs.read call hcall found hrecord
      · intro found hfound
        have hrecord : call.stage.checked = some found := hstage.symm ▸ hfound
        exact hs.own call hcall found hrecord

theorem bound_save (hs : Bound store s) (conversationId userId : Id) :
    Bound store (s.save store conversationId userId) := by
  let record : PendingCommand :=
    { token := s.nextToken, conversationId, userId, expiresAt := s.now + store.ttlMs }
  have hmem {other : PendingCommand} (hother : other ∈ s.forget store (store.dataKey record) ++ [record]) :
      other ∈ s.pending ∧ store.dataKey other ≠ store.dataKey record ∨ other = record := by
    rcases List.mem_append.mp hother with hother | hother
    · obtain ⟨hother, hkey⟩ := List.mem_filter.mp hother
      exact .inl ⟨hother, of_decide_eq_true hkey⟩
    · exact .inr (List.mem_singleton.mp hother)
  refine ⟨hs.distinct, ?_, ?_, ?_, hs.own, hs.once, ?_, ?_, hs.used⟩
  · intro other hother
    rcases List.mem_append.mp hother with hother | hother
    · exact Nat.lt_succ_of_lt (hs.fresh other hother)
    · rw [List.mem_singleton.mp hother]
      exact Nat.lt_succ_self _
  · intro entry hentry
    rcases Table.mem_upsert hentry with rfl | hentry
    · exact ⟨List.mem_append_right _ (List.mem_singleton_self record), rfl⟩
    · obtain ⟨hsaved, hkey⟩ := hs.data entry hentry
      exact ⟨List.mem_append_left _ hsaved, hkey⟩
  · intro other hother found hfound
    obtain ⟨hsaved, hkey⟩ := hs.read other hother found hfound
    exact ⟨List.mem_append_left _ hsaved, hkey⟩
  · intro other hother
    rcases hmem hother with ⟨hother, -⟩ | rfl
    · obtain ⟨hsaved, hnot⟩ := hs.pending other hother
      exact ⟨List.mem_append_left _ hsaved, hnot⟩
    · refine ⟨List.mem_append_right _ (List.mem_singleton_self record), ?_⟩
      rintro ⟨call, hcall, found, hfound, htoken⟩
      have hsaved := (hs.read call hcall found (claimed_of_record hfound)).1
      exact absurd (hs.fresh found hsaved) (by rw [htoken]; exact Nat.lt_irrefl _)
  · intro other hother later hlater hexpires
    rcases hmem hother with ⟨hother, hkey⟩ | rfl
    · show Expiring.get later _ (Expiring.set s.now (store.dataKey record) record store.ttlMs s.data) = _
      rw [Expiring.get_set_of_ne hkey.symm]
      exact hs.kept other hother later hlater hexpires
    · exact Expiring.get_set_self hexpires

theorem bound_clear (hs : Bound store s) (conversationId : Id) :
    Bound store (s.step store (.clear conversationId)) := by
  cases store with
  | intents => exact hs
  | copilot =>
      refine ⟨hs.distinct, hs.fresh, ?_, hs.read, hs.own, hs.once, ?_, ?_, hs.used⟩
      · intro entry hentry
        exact hs.data entry (Table.mem_erase.mp hentry).1
      · intro record hrecord
        exact hs.pending record (List.mem_filter.mp hrecord).1
      · intro record hrecord later hlater hexpires
        obtain ⟨hrecord, hkey⟩ := List.mem_filter.mp hrecord
        show Expiring.get later _ (Expiring.del conversationId s.data) = _
        rw [Expiring.get_del_of_ne fun h => of_decide_eq_true hkey h.symm]
        exact hs.kept record hrecord later hlater hexpires

theorem bound_step (hs : Bound store s) {event : ConfirmationEvent} (hguard : s.Guarded store event) :
    Bound store (s.step store event) := by
  cases event with
  | save conversationId userId => exact bound_save hs conversationId userId
  | take id key userId =>
      unfold ConfirmationState.step
      dsimp only
      split
      · exact hs
      · rename_i hnew
        let call : TakeCall := { id, key, userId }
        have hmem {other : TakeCall} (hother : other ∈ Table.upsert TakeCall.id call s.calls) :
            other = call ∨ other ∈ s.calls := Table.mem_upsert hother
        have hclaimed {token : Id} (h : ∃ other ∈ Table.upsert TakeCall.id call s.calls,
            ∃ record ∈ other.stage.claimed, record.token = token) : s.Claimed token := by
          obtain ⟨other, hother, record, hrecord, htoken⟩ := h
          rcases hmem hother with rfl | hother
          · cases hrecord
          · exact ⟨other, hother, record, hrecord, htoken⟩
        refine ⟨Table.distinct_upsert hs.distinct call, hs.fresh, hs.data, ?_, ?_, ?_, ?_, hs.kept, ?_⟩
        · intro other hother record hrecord
          rcases hmem hother with rfl | hother
          · cases hrecord
          · exact hs.read other hother record hrecord
        · intro other hother record hrecord
          rcases hmem hother with rfl | hother
          · cases hrecord
          · exact hs.own other hother record hrecord
        · intro first hfirst second hsecond record found hrecord hfound htoken
          rcases hmem hfirst with rfl | hfirst
          · cases hrecord
          · rcases hmem hsecond with rfl | hsecond
            · cases hfound
            · exact hs.once first hfirst second hsecond record found hrecord hfound htoken
        · intro record hrecord
          exact ⟨(hs.pending record hrecord).1, fun h => (hs.pending record hrecord).2 (hclaimed h)⟩
        · intro entry hentry
          obtain ⟨other, hother, record, hrecord, htoken⟩ := hs.used entry hentry
          refine ⟨other, Table.mem_upsert_of_ne hother ?_, record, hrecord, htoken⟩
          exact Table.lookup_eq_none.mp hnew other hother
  | step id =>
      unfold ConfirmationState.step
      dsimp only
      split
      · exact hs
      · rename_i call hfound
        exact bound_advance hs (Table.mem_of_lookup hfound) (hguard call hfound)
  | clear conversationId => exact bound_clear hs conversationId
  | wait milliseconds =>
      refine ⟨hs.distinct, hs.fresh, hs.data, hs.read, hs.own, hs.once, hs.pending, ?_, hs.used⟩
      intro record hrecord later hlater hexpires
      exact hs.kept record hrecord later ((Nat.le_add_right _ _).trans hlater) hexpires

end Steps

/-! ## Taking what is pending -/

section Taking

variable {store : ConfirmationStore} {s : ConfirmationState}

/-- The step of a call that has just been put down. -/
theorem step_call (s : ConfirmationState) (call : TakeCall) (calls : List TakeCall) :
    ConfirmationState.step store { s with calls := Table.upsert TakeCall.id call calls } (.step call.id) =
      { (ConfirmationState.advance { s with calls := Table.upsert TakeCall.id call calls } store call).1 with
        calls := Table.upsert TakeCall.id
          { call with stage :=
              (ConfirmationState.advance { s with calls := Table.upsert TakeCall.id call calls } store call).2 }
          (Table.upsert TakeCall.id call calls) } := by
  unfold ConfirmationState.step
  dsimp only
  rw [Table.lookup_upsert_self]

theorem takeable_of_bound (hs : Bound store s) {record : PendingCommand} (hrecord : record ∈ s.pending)
    (hlive : s.now < record.expiresAt) : s.Takeable store record := by
  intro id hnew
  have hdata := hs.kept record hrecord s.now le_rfl hlive
  have hunused : Expiring.get s.now (store.usedKey (store.dataKey record) record) s.used = none := by
    rw [usedKey_eq rfl]
    cases hget : Expiring.get s.now record.token s.used with
    | none => rfl
    | some value =>
        obtain ⟨entry, hentry, -⟩ := Option.map_eq_some_iff.mp hget
        have hlookup := (Option.filter_eq_some_iff.mp hentry).1
        have hclaimed := hs.used entry (Table.mem_of_lookup hlookup)
        rw [Table.key_of_lookup hlookup] at hclaimed
        exact absurd hclaimed (hs.pending record hrecord).2
  let call (stage : TakeStage) : TakeCall := { id, key := store.dataKey record, userId := record.userId, stage }
  have htake : ConfirmationState.step store s (.take id (store.dataKey record) record.userId) =
      { s with calls := Table.upsert TakeCall.id (call .reading) s.calls } := by
    unfold ConfirmationState.step
    dsimp only
    rw [hnew]
  have hread (calls : List TakeCall) :
      ConfirmationState.step store { s with calls := Table.upsert TakeCall.id (call .reading) calls } (.step id) =
        { s with
          calls := Table.upsert TakeCall.id (call (.checking (some record)))
            (Table.upsert TakeCall.id (call .reading) calls) } := by
    rw [step_call s (call .reading) calls]
    unfold ConfirmationState.advance
    dsimp only [call]
    rw [hdata]
  have hcheck (calls : List TakeCall) :
      ConfirmationState.step store
          { s with calls := Table.upsert TakeCall.id (call (.checking (some record))) calls } (.step id) =
        { s with
          calls := Table.upsert TakeCall.id (call (.claiming record (max 1 (record.expiresAt - s.now))))
            (Table.upsert TakeCall.id (call (.checking (some record))) calls) } := by
    rw [step_call s (call (.checking (some record))) calls]
    unfold ConfirmationState.advance
    dsimp only [call]
    rw [if_neg (not_or.mpr ⟨not_not_intro rfl, Nat.not_le.mpr hlive⟩)]
  have hclaim (remainingMs : ℕ) (calls : List TakeCall) :
      ∃ (s' : ConfirmationState) (calls' : List TakeCall),
      ConfirmationState.step store
          { s with calls := Table.upsert TakeCall.id (call (.claiming record remainingMs)) calls } (.step id) =
        { s' with calls := Table.upsert TakeCall.id (call (.deleting record)) calls' } := by
    rw [step_call s (call (.claiming record remainingMs)) calls]
    unfold ConfirmationState.advance Expiring.setNx
    dsimp only [call]
    rw [hunused]
    exact ⟨_, _, rfl⟩
  have hdelete (s' : ConfirmationState) (calls : List TakeCall) :
      Table.lookup TakeCall.id id (ConfirmationState.step store
          { s' with calls := Table.upsert TakeCall.id (call (.deleting record)) calls } (.step id)).calls =
        some (call (.returned (some record))) := by
    rw [step_call s' (call (.deleting record)) calls]
    exact Table.lookup_upsert_self (call (.returned (some record))) _
  rw [Machine.run_cons, htake, Machine.run_cons, hread, Machine.run_cons, hcheck, Machine.run_cons]
  obtain ⟨s', calls', hclaimed⟩ := hclaim _ _
  rw [hclaimed, Machine.run_cons, Machine.run_nil]
  exact hdelete s' calls'

end Taking

/-! ## Runs -/

theorem bound_start (store : ConfirmationStore) : Bound store {} where
  distinct := List.nodup_nil
  fresh := nofun
  data := nofun
  read := nofun
  own := nofun
  once := nofun
  pending := nofun
  kept := nofun
  used := nofun

theorem singleUse_of_bound {store : ConfirmationStore} {s : ConfirmationState} (hs : Bound store s) :
    s.SingleUse store where
  once call hcall other hother record found hrecord hfound htoken :=
    hs.once call hcall other hother record found (by rw [hrecord]; rfl) (by rw [hfound]; rfl) htoken
  own call hcall record hrecord := by
    have hclaimed : call.stage.claimed = some record := by rw [hrecord]; rfl
    exact ⟨(hs.read call hcall record (claimed_of_record hclaimed)).1,
      hs.own call hcall record (checked_of_claimed hclaimed)⟩
  kept record hrecord hlive := takeable_of_bound hs hrecord hlive

/-- However saves, takes and clears interleave and whatever time passes: if no command is claimed again after an
earlier claim of it has ended, and nothing but claimed commands is deleted, confirmations are single-use and kept
for their users. -/
theorem confirmations_single_use (store : ConfirmationStore) {events : List ConfirmationEvent}
    (hguarded : Machine.Meets (ConfirmationState.step store) (fun s event => s.Guarded store event) {} events) :
    (Machine.run (ConfirmationState.step store) {} events).SingleUse store :=
  singleUse_of_bound (Machine.invariant_of_meets (I := Bound store)
    (fun _ _ hs hguard => bound_step hs hguard) (bound_start store) hguarded)

/-- Two takes at once: one returns the command. -/
def takenTogether : List ConfirmationEvent :=
  [.save 7 1, .take 1 7 1, .take 2 7 1, .step 1, .step 2, .step 1, .step 2, .step 1, .step 2, .step 1]

theorem takenTogether_once : (Machine.run (ConfirmationState.step .copilot) {} takenTogether).SingleUse .copilot :=
  confirmations_single_use .copilot (by decide)

/-- The second take claims what it has read when the claim of the first one has ended. -/
def claimedLate (key : Id) : List ConfirmationEvent :=
  [.save 7 1, .take 1 key 1, .take 2 key 1, .step 1, .step 2, .step 1, .step 2, .step 1, .step 1, .wait 600000,
    .step 2, .step 2]

/-- A command saved while a take is between its claim and its deletion. -/
def savedMeanwhile : List ConfirmationEvent :=
  [.save 7 1, .take 1 7 1, .step 1, .step 1, .step 1, .save 7 1, .step 1]

theorem taken_twice_or_lost :
    ¬ (Machine.run (ConfirmationState.step .intents) {} (claimedLate 0)).SingleUse .intents ∧
      ¬ (Machine.run (ConfirmationState.step .copilot) {} (claimedLate 7)).SingleUse .copilot ∧
      ¬ (Machine.run (ConfirmationState.step .copilot) {} savedMeanwhile).SingleUse .copilot := by
  let record : PendingCommand := { token := 0, conversationId := 7, userId := 1, expiresAt := 600000 }
  refine ⟨fun h => ?_, fun h => ?_, fun h => ?_⟩
  · have htwice := h.once { id := 1, key := 0, userId := 1, stage := .returned (some record) } (by decide)
      { id := 2, key := 0, userId := 1, stage := .returned (some record) } (by decide) record record rfl rfl rfl
    cases htwice
  · have htwice := h.once { id := 1, key := 7, userId := 1, stage := .returned (some record) } (by decide)
      { id := 2, key := 7, userId := 1, stage := .returned (some record) } (by decide) record record rfl rfl rfl
    cases htwice
  · have hlost := h.kept { token := 1, conversationId := 7, userId := 1, expiresAt := 600000 } (by decide)
      (by decide) 2 (by decide)
    exact absurd hlost (by decide)

end DealFlow360.Confirmations
