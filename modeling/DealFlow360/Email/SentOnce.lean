import DealFlow360.Email.Delivery
import DealFlow360.Lib.Claims
import DealFlow360.Lib.Machine

/-!
# Emails are sent once

A call that finds its key in progress answers as if the email had been sent.
The key is in progress while some call sends, but also after the sending call
was cut off; and a call whose email was sent removes the key if it cannot mark
it as completed.

`KeyHeld` says who holds a key: a call that acquired it and has not marked it
yet, or nobody any more, because the email was sent and the key is completed.
`advanceKeyed` is one step of a call, and steps of calls with other keys leave
it alone (`advanceKeyed_other`).

- `keyHeld_quiet`, `keyHeld_free`, `keyHeld_deliver`: the steps that do not
  send;
- `held_step`: every guarded event before the deadline keeps it;
- `email_sent_once`: within the lifetime of a key, in every run of guarded
  steps, the email of the key is sent at most once, and a call that answers as
  sent has it sent.

The two failing runs cut a call off while it sends, and fail its mark after it
has sent.
-/

namespace DealFlow360.Email

/-! ## Holders of a key -/

/-- Whether the provider has sent the email of a call that holds its key. -/
def DeliverStage.holds : DeliverStage → Option Bool
  | .sending => some false
  | .completing => some true
  | .releasing sent | .deleting sent => some sent
  | _ => none

namespace EmailState

variable (s : EmailState)

/-- Some call with the key is at the stage. -/
def At (key : String) (stage : DeliverStage) : Prop :=
  ∃ call ∈ s.calls, call.idempotencyKey = some key ∧ call.stage = stage

instance (key : String) (stage : DeliverStage) : Decidable (s.At key stage) :=
  inferInstanceAs (Decidable (∃ call ∈ s.calls, call.idempotencyKey = some key ∧ call.stage = stage))

/-- No email is sent twice for the key, and if a call with it has returned and none is in progress, one has been
sent. -/
structure Delivered (key : String) : Prop where
  once : s.sent.count key ≤ 1
  sent : s.At key .returned →
    (∀ call ∈ s.calls, call.idempotencyKey = some key → call.stage.isOver = true) → key ∈ s.sent

/-- No call has used the key. -/
structure Fresh (key : String) : Prop where
  distinct : Table.Distinct DeliverCall.id s.calls
  unused : ∀ call ∈ s.calls, call.idempotencyKey ≠ some key
  absent : s.status key = none
  unsent : key ∉ s.sent

/-- If the key is found in progress, its email is sent or being sent; no sending fails once a call with the key has
returned; the key is not removed once its email has been sent. -/
def GuardedStep (key : String) (fails : Bool) : DeliverStage → Prop
  | .acquiring => fails = false → s.status key = some .inProgress → key ∈ s.sent ∨ s.At key .sending
  | .sending => fails = true → ¬ s.At key .returned
  | .deleting sent => fails = false → sent = false
  | _ => True

/-- What the steps of the calls with the key meet. -/
def Guarded (key : String) : EmailEvent → Prop
  | .step id fails => ∀ call, Table.lookup DeliverCall.id id s.calls = some call →
      call.idempotencyKey = some key → s.GuardedStep key fails call.stage
  | .crash id => ∀ call, Table.lookup DeliverCall.id id s.calls = some call →
      call.idempotencyKey = some key → s.GuardedStep key true call.stage
  | _ => True

instance (key : String) (fails : Bool) : ∀ stage, Decidable (s.GuardedStep key fails stage)
  | .acquiring => inferInstanceAs (Decidable (fails = false → s.status key = some .inProgress →
      key ∈ s.sent ∨ s.At key .sending))
  | .sending => inferInstanceAs (Decidable (fails = true → ¬ s.At key .returned))
  | .deleting sent => inferInstanceAs (Decidable (fails = false → sent = false))
  | .checking | .beginning | .completing | .releasing _ | .returned | .threw | .crashed => .isTrue trivial

instance (key : String) : ∀ event, Decidable (s.Guarded key event)
  | .step id fails => inferInstanceAs (Decidable (∀ call ∈ Table.lookup DeliverCall.id id s.calls,
      call.idempotencyKey = some key → s.GuardedStep key fails call.stage))
  | .crash id => inferInstanceAs (Decidable (∀ call ∈ Table.lookup DeliverCall.id id s.calls,
      call.idempotencyKey = some key → s.GuardedStep key true call.stage))
  | .deliver .. | .wait .. => .isTrue trivial

end EmailState

/-- One call holds the key at most, which is in progress then; what is marked is sent, and what is sent is
marked. -/
structure KeyHeld (s : EmailState) (key : String) : Prop where
  held : ∀ call ∈ s.calls, call.idempotencyKey = some key → ∀ sent, call.stage.holds = some sent →
    s.status key = some .inProgress ∧ (sent = true ↔ key ∈ s.sent)
  alone : ∀ call ∈ s.calls, ∀ other ∈ s.calls, call.idempotencyKey = some key →
    other.idempotencyKey = some key → call.stage.holds.isSome → other.stage.holds.isSome → call.id = other.id
  marked : key ∈ s.sent → (s.status key).isSome
  completed : s.status key = some .completed → key ∈ s.sent
  returned : s.At key .returned → key ∈ s.sent ∨ s.At key .sending

section Keys

variable {s s' : EmailState} {key other : String} {call : DeliverCall} {stage : DeliverStage}

theorem mem_calls (hs : Table.Distinct DeliverCall.id s.calls)
    (hcalls : s'.calls = Table.upsert DeliverCall.id { call with stage } s.calls) {other : DeliverCall} :
    other ∈ s'.calls ↔ other = { call with stage } ∨ other ∈ s.calls ∧ other.id ≠ call.id := by
  rw [hcalls]
  exact Table.mem_upsert_iff hs

/-- The calls of another key. -/
theorem keyHeld_elsewhere (hs : KeyHeld s other) (hdistinct : Table.Distinct DeliverCall.id s.calls)
    (hcall : call ∈ s.calls) (hother : call.idempotencyKey ≠ some other)
    (hcalls : s'.calls = Table.upsert DeliverCall.id { call with stage } s.calls)
    (hstatus : s'.status other = s.status other) (hsent : other ∈ s'.sent ↔ other ∈ s.sent) :
    KeyHeld s' other := by
  have hsame {found : DeliverCall} (hkey : found.idempotencyKey = some other) :
      found ∈ s'.calls ↔ found ∈ s.calls := by
    rw [mem_calls hdistinct hcalls]
    constructor
    · rintro (rfl | ⟨hfound, -⟩)
      · exact absurd hkey hother
      · exact hfound
    · intro hfound
      refine .inr ⟨hfound, fun hid => hother ?_⟩
      have heq : found = call := List.inj_on_of_nodup_map hdistinct hfound hcall hid
      rw [← heq]
      exact hkey
  have hat (stage : DeliverStage) : s'.At other stage ↔ s.At other stage := by
    constructor
    · rintro ⟨found, hfound, hkey, hstage⟩
      exact ⟨found, (hsame hkey).mp hfound, hkey, hstage⟩
    · rintro ⟨found, hfound, hkey, hstage⟩
      exact ⟨found, (hsame hkey).mpr hfound, hkey, hstage⟩
  refine ⟨?_, ?_, ?_, ?_, ?_⟩
  · intro found hfound hkey sent hholds
    rw [hstatus, hsent]
    exact hs.held found ((hsame hkey).mp hfound) hkey sent hholds
  · intro first hfirst second hsecond hkey hkey'
    exact hs.alone first ((hsame hkey).mp hfirst) second ((hsame hkey').mp hsecond) hkey hkey'
  · rw [hsent, hstatus]
    exact hs.marked
  · rw [hsent, hstatus]
    exact hs.completed
  · rw [hsent, hat, hat]
    exact hs.returned

/-- A step of a call with the key: it holds the key alone if it holds it before, or if nobody does. -/
theorem keyHeld_own (hs : KeyHeld s key) (hdistinct : Table.Distinct DeliverCall.id s.calls)
    (hcall : call ∈ s.calls) (hkey : call.idempotencyKey = some key)
    (hcalls : s'.calls = Table.upsert DeliverCall.id { call with stage } s.calls)
    (hown : ∀ sent, stage.holds = some sent → s'.status key = some .inProgress ∧ (sent = true ↔ key ∈ s'.sent))
    (hothers : (s'.status key = s.status key ∧ (key ∈ s'.sent ↔ key ∈ s.sent) ∧
        (stage.holds.isSome → call.stage.holds.isSome)) ∨
      ∀ other ∈ s.calls, other.idempotencyKey = some key → other.stage.holds.isSome → other.id = call.id)
    (hmarked : key ∈ s'.sent → (s'.status key).isSome)
    (hcompleted : s'.status key = some .completed → key ∈ s'.sent)
    (hmono : key ∈ s.sent → key ∈ s'.sent)
    (hreturned : stage = .returned → key ∈ s'.sent ∨ s.At key .sending)
    (hleft : call.stage = .sending → key ∈ s'.sent ∨ stage ≠ .returned ∧ ¬ s.At key .returned) :
    KeyHeld s' key := by
  have hmem {other : DeliverCall} (hother : other ∈ s'.calls) :
      other = { call with stage } ∨ other ∈ s.calls ∧ other.id ≠ call.id :=
    (mem_calls hdistinct hcalls).mp hother
  refine ⟨?_, ?_, hmarked, hcompleted, ?_⟩
  · intro other hother hotherkey sent hholds
    rcases hmem hother with rfl | ⟨hother, hne⟩
    · exact hown sent hholds
    · rcases hothers with ⟨hstatus, hsent, -⟩ | halone
      · rw [hstatus, hsent]
        exact hs.held other hother hotherkey sent hholds
      · exact absurd (halone other hother hotherkey (by rw [hholds]; rfl)) hne
  · intro first hfirst second hsecond hfirstkey hsecondkey hholds hholds'
    have hagainst (other : DeliverCall) (hother : other ∈ s.calls) (hotherkey : other.idempotencyKey = some key)
        (hstage : stage.holds.isSome) (hotherholds : other.stage.holds.isSome) : other.id = call.id := by
      rcases hothers with ⟨-, -, hbefore⟩ | halone
      · exact hs.alone other hother call hcall hotherkey hkey hotherholds (hbefore hstage)
      · exact halone other hother hotherkey hotherholds
    rcases hmem hfirst with rfl | ⟨hfirst, hne⟩
    · rcases hmem hsecond with rfl | ⟨hsecond, hne⟩
      · rfl
      · exact absurd (hagainst second hsecond hsecondkey hholds hholds') hne
    · rcases hmem hsecond with rfl | ⟨hsecond, -⟩
      · exact absurd (hagainst first hfirst hfirstkey hholds' hholds) hne
      · exact hs.alone first hfirst second hsecond hfirstkey hsecondkey hholds hholds'
  · rintro ⟨other, hother, hotherkey, hstage⟩
    -- whoever was sending still is, or has sent, or has failed before anybody returned
    have hsending (h : s.At key .sending) (hnew : stage = .returned ∨ s.At key .returned) :
        key ∈ s'.sent ∨ s'.At key .sending := by
      obtain ⟨sender, hsender, hsenderkey, hsenderstage⟩ := h
      by_cases hid : sender.id = call.id
      · have heq : sender = call := List.inj_on_of_nodup_map hdistinct hsender hcall hid
        rcases hleft (heq ▸ hsenderstage) with hsent | ⟨hstage, hnone⟩
        · exact .inl hsent
        · rcases hnew with hnew | hnew
          · exact absurd hnew hstage
          · exact absurd hnew hnone
      · exact .inr ⟨sender, (mem_calls hdistinct hcalls).mpr (.inr ⟨hsender, hid⟩), hsenderkey, hsenderstage⟩
    rcases hmem hother with rfl | ⟨hother, -⟩
    · rcases hreturned hstage with hsent | hat
      · exact .inl hsent
      · exact hsending hat (.inl hstage)
    · have hat : s.At key .returned := ⟨other, hother, hotherkey, hstage⟩
      rcases hs.returned hat with hsent | hsender
      · exact .inl (hmono hsent)
      · exact hsending hsender (.inr hat)

end Keys

/-! ## Steps -/

/-- The key is held by one call at most, which has sent one email at most, and what is read under it does not
expire before the deadline. -/
structure Held (key : String) (deadline : Timestamp) (s : EmailState) : Prop where
  distinct : Table.Distinct DeliverCall.id s.calls
  once : s.sent.count key ≤ 1
  steady : Expiring.Steady s.now deadline key s.entries
  held : KeyHeld s key

section Steps

variable {s : EmailState} {key other : String} {deadline : Timestamp} {fails : Bool} {call : DeliverCall}

theorem acquire_cases (s : EmailState) (key : String) :
    ((s.acquire key).1 = false ∧ (s.status key).isSome) ∨
      (s.status key = none ∧
        s.acquire key = (true, Expiring.set s.now key .inProgress idempotencyTtlMs s.entries)) := by
  unfold EmailState.acquire EmailState.status Expiring.setNx
  split
  · rename_i hsome
    exact .inl ⟨rfl, hsome⟩
  · rename_i hnone
    exact .inr ⟨Option.not_isSome_iff_eq_none.mp hnone, rfl⟩

theorem status_set (value : IdempotencyStatus) :
    ({ s with entries := Expiring.set s.now key value idempotencyTtlMs s.entries } : EmailState).status key =
      some value :=
  Expiring.get_set_self (Nat.lt_add_of_pos_right (by decide))

theorem status_set_of_ne (hne : key ≠ other) (value : IdempotencyStatus) :
    ({ s with entries := Expiring.set s.now key value idempotencyTtlMs s.entries } : EmailState).status other =
      s.status other :=
  Expiring.get_set_of_ne hne

/-- A step with a key says nothing of the others. -/
theorem advanceKeyed_other (hne : key ≠ other) (stage : DeliverStage) :
    (s.advanceKeyed key fails stage).1.status other = s.status other ∧
      (s.advanceKeyed key fails stage).1.sent.count other = s.sent.count other := by
  cases fails with
  | true => cases stage <;> exact ⟨rfl, rfl⟩
  | false =>
      cases stage with
      | acquiring =>
          unfold EmailState.advanceKeyed
          rcases acquire_cases s key with ⟨hanswer, -⟩ | ⟨-, hacquired⟩
          · rw [if_neg Bool.false_ne_true]
            generalize s.acquire key = answer at hanswer
            obtain ⟨acquired, entries⟩ := answer
            cases hanswer
            exact ⟨rfl, rfl⟩
          · rw [if_neg Bool.false_ne_true, hacquired]
            exact ⟨status_set_of_ne hne _, rfl⟩
      | sending =>
          refine ⟨rfl, ?_⟩
          show (s.sent ++ [key]).count other = s.sent.count other
          rw [List.count_append, List.count_singleton, if_neg (by simpa using hne), Nat.add_zero]
      | completing => exact ⟨status_set_of_ne hne _, rfl⟩
      | deleting => exact ⟨Expiring.get_del_of_ne hne, rfl⟩
      | checking | beginning | releasing | returned | threw | crashed => exact ⟨rfl, rfl⟩

theorem now_advanceKeyed (stage : DeliverStage) : (s.advanceKeyed key fails stage).1.now = s.now := by
  cases fails with
  | true => cases stage <;> rfl
  | false =>
      cases stage with
      | acquiring =>
          unfold EmailState.advanceKeyed
          dsimp only
          rw [if_neg Bool.false_ne_true]
          split <;> rfl
      | _ => rfl

theorem steady_advanceKeyed (h : Expiring.Steady s.now deadline other s.entries)
    (hdeadline : deadline ≤ s.now + idempotencyTtlMs) (stage : DeliverStage) :
    Expiring.Steady s.now deadline other (s.advanceKeyed key fails stage).1.entries := by
  have hset (value : IdempotencyStatus) :
      Expiring.Steady s.now deadline other (Expiring.set s.now key value idempotencyTtlMs s.entries) := by
    by_cases hne : key = other
    · subst hne
      exact Expiring.steady_set_self hdeadline
    · exact Expiring.steady_set_of_ne hne h
  cases fails with
  | true => cases stage <;> exact h
  | false =>
      cases stage with
      | acquiring =>
          unfold EmailState.advanceKeyed
          rw [if_neg Bool.false_ne_true]
          rcases acquire_cases s key with ⟨hanswer, -⟩ | ⟨-, hacquired⟩
          · generalize s.acquire key = answer at hanswer
            obtain ⟨acquired, entries⟩ := answer
            cases hanswer
            exact h
          · rw [hacquired]
            exact hset _
      | completing => exact hset _
      | deleting => exact Expiring.steady_del h
      | checking | beginning | sending | releasing | returned | threw | crashed => exact h

/-- A step that changes neither the key nor what was sent, and leaves the call without the key or where it holds
it as before. -/
theorem keyHeld_quiet (hs : Held key deadline s) (hcall : call ∈ s.calls) (hkey : call.idempotencyKey = some key)
    {stage : DeliverStage} (hholds : ∀ sent, stage.holds = some sent → call.stage.holds = some sent)
    (hreturned : stage = .returned → key ∈ s.sent ∨ s.At key .sending)
    (hleft : call.stage = .sending → key ∈ s.sent ∨ stage ≠ .returned ∧ ¬ s.At key .returned) :
    KeyHeld { s with calls := Table.upsert DeliverCall.id { call with stage } s.calls } key := by
  have hown := hs.held
  refine keyHeld_own hown hs.distinct hcall hkey rfl ?_ (.inl ⟨rfl, Iff.rfl, ?_⟩) hown.marked hown.completed id
    hreturned hleft
  · exact fun sent hstage => hown.held call hcall hkey sent (hholds sent hstage)
  · intro hsome
    obtain ⟨sent, hsent⟩ := Option.isSome_iff_exists.mp hsome
    rw [hholds sent hsent]
    rfl

/-- A call that does not send steps on without the key. -/
theorem keyHeld_free (hs : Held key deadline s) (hcall : call ∈ s.calls) (hkey : call.idempotencyKey = some key)
    (hnot : call.stage ≠ .sending) {stage : DeliverStage} (hholds : stage.holds = none)
    (hreturned : stage = .returned → key ∈ s.sent ∨ s.At key .sending) :
    KeyHeld { s with calls := Table.upsert DeliverCall.id { call with stage } s.calls } key := by
  refine keyHeld_quiet hs hcall hkey ?_ hreturned fun h => absurd h hnot
  intro sent hsent
  rw [hholds] at hsent
  cases hsent

/-- Looking the key up ends the call only where the key is completed. -/
theorem advanceKeyed_looks (fails : Bool) {stage : DeliverStage} (hstage : stage = .checking ∨ stage = .beginning) :
    ∃ next, s.advanceKeyed key fails stage = (s, next) ∧ next.holds = none ∧
      (next = .returned → s.status key = some .completed) := by
  cases fails with
  | true => rcases hstage with rfl | rfl <;> exact ⟨.threw, rfl, rfl, nofun⟩
  | false =>
      by_cases hcompleted : s.status key = some .completed
      · refine ⟨.returned, ?_, rfl, fun _ => hcompleted⟩
        rcases hstage with rfl | rfl
        · show (s, if s.status key = some .completed then DeliverStage.returned else .beginning) = _
          rw [if_pos hcompleted]
        · show (s, if s.status key = some .completed then DeliverStage.returned else .acquiring) = _
          rw [if_pos hcompleted]
      · rcases hstage with rfl | rfl
        · refine ⟨.beginning, ?_, rfl, nofun⟩
          show (s, if s.status key = some .completed then DeliverStage.returned else .beginning) = _
          rw [if_neg hcompleted]
        · refine ⟨.acquiring, ?_, rfl, nofun⟩
          show (s, if s.status key = some .completed then DeliverStage.returned else .acquiring) = _
          rw [if_neg hcompleted]

theorem keyHeld_advance (hs : Held key deadline s) (hcall : call ∈ s.calls) (hkey : call.idempotencyKey = some key)
    (hguard : s.GuardedStep key fails call.stage) :
    KeyHeld { (s.advanceKeyed key fails call.stage).1 with
      calls := Table.upsert DeliverCall.id { call with stage := (s.advanceKeyed key fails call.stage).2 } s.calls }
      key := by
  have hown := hs.held
  have halone (h : call.stage.holds.isSome) : ∀ other ∈ s.calls, other.idempotencyKey = some key →
      other.stage.holds.isSome → other.id = call.id :=
    fun other hother hotherkey hotherholds =>
      hown.alone other hother call hcall hotherkey hkey hotherholds h
  cases hstage : call.stage with
  | checking =>
      have hnot : call.stage ≠ .sending := fun h => absurd (hstage.symm.trans h) nofun
      obtain ⟨next, hadvance, hholds, hreturned⟩ := @advanceKeyed_looks s key fails _ (.inl rfl)
      rw [hadvance]
      exact keyHeld_free hs hcall hkey hnot hholds fun h => .inl (hown.completed (hreturned h))
  | beginning =>
      have hnot : call.stage ≠ .sending := fun h => absurd (hstage.symm.trans h) nofun
      obtain ⟨next, hadvance, hholds, hreturned⟩ := @advanceKeyed_looks s key fails _ (.inr rfl)
      rw [hadvance]
      exact keyHeld_free hs hcall hkey hnot hholds fun h => .inl (hown.completed (hreturned h))
  | acquiring =>
      have hnot : call.stage ≠ .sending := fun h => absurd (hstage.symm.trans h) nofun
      rw [hstage] at hguard
      unfold EmailState.advanceKeyed
      cases fails with
      | true => exact keyHeld_quiet hs hcall hkey nofun nofun fun h => absurd h hnot
      | false =>
          rw [if_neg Bool.false_ne_true]
          rcases acquire_cases s key with ⟨hanswer, hsome⟩ | ⟨hnone, hacquired⟩
          · generalize s.acquire key = answer at hanswer
            obtain ⟨acquired, entries⟩ := answer
            cases hanswer
            refine keyHeld_quiet hs hcall hkey nofun (fun _ => ?_) fun h => absurd h hnot
            cases hstatus : s.status key with
            | none =>
                rw [hstatus] at hsome
                cases hsome
            | some status =>
                cases status with
                | completed => exact .inl (hown.completed hstatus)
                | inProgress => exact hguard rfl hstatus
          · rw [hacquired]
            have hunsent : key ∉ s.sent := by
              intro hsent
              have hmarked := hown.marked hsent
              rw [hnone] at hmarked
              cases hmarked
            refine keyHeld_own hown hs.distinct hcall hkey rfl ?_ (.inr ?_) (fun h => absurd h hunsent) ?_ id nofun
              fun h => absurd h hnot
            · intro sent hsent
              cases hsent
              exact ⟨status_set _, iff_of_false nofun hunsent⟩
            · intro other hother hotherkey hholds
              obtain ⟨sent, hsent⟩ := Option.isSome_iff_exists.mp hholds
              have hheld := (hown.held other hother hotherkey sent hsent).1
              rw [hnone] at hheld
              cases hheld
            · intro hcompleted
              cases (@status_set s key .inProgress).symm.trans hcompleted
  | sending =>
      rw [hstage] at hguard
      have hheld := hown.held call hcall hkey false (by rw [hstage]; rfl)
      unfold EmailState.advanceKeyed
      cases fails with
      | true =>
          refine keyHeld_quiet hs hcall hkey ?_ nofun fun _ => .inr ⟨nofun, hguard rfl⟩
          intro sent hsent
          rw [hstage]
          exact hsent
      | false =>
          have hsent : key ∈ s.sent ++ [key] := List.mem_append_right _ (List.mem_singleton_self key)
          refine keyHeld_own hown hs.distinct hcall hkey rfl ?_ (.inr (halone (by rw [hstage]; rfl))) ?_ ?_
            (fun _ => hsent) nofun fun _ => .inl hsent
          · intro sent hholds
            cases hholds
            exact ⟨hheld.1, iff_of_true rfl hsent⟩
          · intro _
            show (s.status key).isSome
            rw [hheld.1]
            rfl
          · exact fun _ => hsent
  | completing =>
      have hheld := hown.held call hcall hkey true (by rw [hstage]; rfl)
      have hsent := hheld.2.mp rfl
      have hnot : call.stage ≠ .sending := fun h => absurd (hstage.symm.trans h) nofun
      unfold EmailState.advanceKeyed
      cases fails with
      | true =>
          refine keyHeld_quiet hs hcall hkey ?_ nofun fun h => absurd h hnot
          intro sent hholds
          rw [hstage]
          exact hholds
      | false =>
          refine keyHeld_own hown hs.distinct hcall hkey rfl nofun (.inr (halone (by rw [hstage]; rfl))) ?_ ?_ id
            (fun _ => .inl hsent) fun h => absurd h hnot
          · intro _
            show ((s.complete key).status key).isSome
            unfold EmailState.complete
            rw [status_set]
            rfl
          · exact fun _ => hsent
  | releasing sent =>
      have hnot : call.stage ≠ .sending := fun h => absurd (hstage.symm.trans h) nofun
      cases fails with
      | true => exact keyHeld_quiet hs hcall hkey nofun nofun fun h => absurd h hnot
      | false =>
          by_cases hstatus : s.status key = some .inProgress
          · have hadvance : s.advanceKeyed key false (.releasing sent) = (s, .deleting sent) := by
              show (s, if s.status key = some .inProgress then DeliverStage.deleting sent else .threw) = _
              rw [if_pos hstatus]
            rw [hadvance]
            refine keyHeld_quiet hs hcall hkey ?_ nofun fun h => absurd h hnot
            intro flag hflag
            rw [hstage]
            exact hflag
          · have hadvance : s.advanceKeyed key false (.releasing sent) = (s, .threw) := by
              show (s, if s.status key = some .inProgress then DeliverStage.deleting sent else .threw) = _
              rw [if_neg hstatus]
            rw [hadvance]
            exact keyHeld_free hs hcall hkey hnot rfl nofun
  | deleting sent =>
      rw [hstage] at hguard
      have hnot : call.stage ≠ .sending := fun h => absurd (hstage.symm.trans h) nofun
      have hheld := hown.held call hcall hkey sent (by rw [hstage]; rfl)
      unfold EmailState.advanceKeyed
      cases fails with
      | true => exact keyHeld_quiet hs hcall hkey nofun nofun fun h => absurd h hnot
      | false =>
          have hunsent : key ∉ s.sent := by
            intro hsent
            have hflag := hguard rfl
            rw [hheld.2.mpr hsent] at hflag
            cases hflag
          refine keyHeld_own hown hs.distinct hcall hkey rfl nofun (.inr (halone (by rw [hstage]; rfl)))
            (fun h => absurd h hunsent) ?_ id nofun fun h => absurd h hnot
          intro hcompleted
          have hnone : (s.delete key).status key = none := Expiring.get_del_self
          cases hnone.symm.trans hcompleted
  | returned =>
      refine keyHeld_quiet hs hcall hkey nofun (fun _ => ?_) fun h => absurd (hstage.symm.trans h) nofun
      exact hown.returned ⟨call, hcall, hkey, hstage⟩
  | threw => exact keyHeld_quiet hs hcall hkey nofun nofun fun h => absurd (hstage.symm.trans h) nofun
  | crashed => exact keyHeld_quiet hs hcall hkey nofun nofun fun h => absurd (hstage.symm.trans h) nofun

theorem once_advance (hs : Held key deadline s) (hcall : call ∈ s.calls) (hkey : call.idempotencyKey = some key) :
    (s.advanceKeyed key fails call.stage).1.sent.count key ≤ 1 := by
  cases hstage : call.stage with
  | sending =>
      cases fails with
      | true => exact hs.once
      | false =>
          have hheld := hs.held.held call hcall hkey false (by rw [hstage]; rfl)
          have hunsent : s.sent.count key = 0 :=
            List.count_eq_zero.mpr fun hsent => absurd (hheld.2.mpr hsent) nofun
          show (s.sent ++ [key]).count key ≤ 1
          rw [List.count_append, hunsent, List.count_singleton_self]
  | acquiring =>
      cases fails with
      | true => exact hs.once
      | false =>
          unfold EmailState.advanceKeyed
          dsimp only
          rw [if_neg Bool.false_ne_true]
          split <;> exact hs.once
  | checking | beginning | completing | releasing | deleting =>
      cases fails <;> exact hs.once
  | returned | threw | crashed => exact hs.once

/-- A call is cut off, or makes a step without a key. -/
theorem held_stage (hs : Held key deadline s) (hcall : call ∈ s.calls) {stage : DeliverStage}
    (hown : call.idempotencyKey = some key →
      KeyHeld { s with calls := Table.upsert DeliverCall.id { call with stage } s.calls } key) :
    Held key deadline { s with calls := Table.upsert DeliverCall.id { call with stage } s.calls } where
  distinct := Table.distinct_upsert hs.distinct _
  once := hs.once
  steady := hs.steady
  held := by
    by_cases hkey : call.idempotencyKey = some key
    · exact hown hkey
    · exact keyHeld_elsewhere hs.held hs.distinct hcall hkey rfl rfl Iff.rfl

/-- A step of a call with the key or with another one. -/
theorem held_advance (hs : Held key deadline s) (hdeadline : deadline ≤ s.now + idempotencyTtlMs)
    (hcall : call ∈ s.calls) (hother : call.idempotencyKey = some other)
    (hguard : call.idempotencyKey = some key → s.GuardedStep key fails call.stage) :
    Held key deadline { (s.advanceKeyed other fails call.stage).1 with
      calls := Table.upsert DeliverCall.id { call with stage := (s.advanceKeyed other fails call.stage).2 } s.calls }
    where
  distinct := Table.distinct_upsert hs.distinct _
  once := by
    by_cases hkey : other = key
    · subst hkey
      exact once_advance hs hcall hother
    · exact (advanceKeyed_other hkey call.stage).2.trans_le hs.once
  steady := by
    show Expiring.Steady (s.advanceKeyed other fails call.stage).1.now deadline key _
    rw [now_advanceKeyed]
    exact steady_advanceKeyed hs.steady hdeadline call.stage
  held := by
    by_cases hkey : other = key
    · subst hkey
      exact keyHeld_advance hs hcall hother (hguard hother)
    · obtain ⟨hstatus, hcount⟩ := @advanceKeyed_other s _ _ fails hkey call.stage
      refine keyHeld_elsewhere hs.held hs.distinct hcall (fun h => hkey ?_) rfl hstatus ?_
      · exact Option.some.inj (hother.symm.trans h)
      · rw [← List.count_pos_iff, ← List.count_pos_iff]
        exact iff_of_eq (congrArg (0 < ·) hcount)

/-- A call that has done nothing yet. -/
theorem keyHeld_deliver (hs : Held key deadline s) (hnew : Table.lookup DeliverCall.id call.id s.calls = none)
    (hstage : call.idempotencyKey = some key → call.stage = .checking) :
    KeyHeld { s with calls := Table.upsert DeliverCall.id call s.calls } key := by
  have hmem {other : DeliverCall} (hother : other ∈ Table.upsert DeliverCall.id call s.calls)
      (hstaged : other.idempotencyKey = some key → other.stage ≠ .checking)
      (hkey : other.idempotencyKey = some key) : other ∈ s.calls := by
    rcases Table.mem_upsert hother with rfl | hother
    · exact absurd (hstage hkey) (hstaged hkey)
    · exact hother
  have hholds {other : DeliverCall} (hsome : other.stage.holds.isSome) : other.stage ≠ .checking := by
    intro h
    rw [h] at hsome
    cases hsome
  refine ⟨?_, ?_, hs.held.marked, hs.held.completed, ?_⟩
  · intro other hother hkey sent hsent
    have hsome : other.stage.holds.isSome := by rw [hsent]; rfl
    exact hs.held.held other (hmem hother (fun _ => hholds hsome) hkey) hkey sent hsent
  · intro first hfirst second hsecond hfirstkey hsecondkey hfirstholds hsecondholds
    exact hs.held.alone first (hmem hfirst (fun _ => hholds hfirstholds) hfirstkey) second
      (hmem hsecond (fun _ => hholds hsecondholds) hsecondkey) hfirstkey hsecondkey hfirstholds hsecondholds
  · rintro ⟨other, hother, hkey, hreturned⟩
    have hbefore : other ∈ s.calls := hmem hother (fun _ h => nomatch hreturned.symm.trans h) hkey
    rcases hs.held.returned ⟨other, hbefore, hkey, hreturned⟩ with hsent | ⟨sender, hsender, hsenderkey, hsending⟩
    · exact .inl hsent
    · refine .inr ⟨sender, Table.mem_upsert_of_ne hsender ?_, hsenderkey, hsending⟩
      exact Table.lookup_eq_none.mp hnew sender hsender

/-- A guarded event before the deadline keeps the key held. -/
theorem held_step {event : EmailEvent} (hs : Held key deadline s) (hdeadline : deadline ≤ s.now + idempotencyTtlMs)
    (hguard : s.Guarded key event) (hnow : (s.step event).now < deadline) : Held key deadline (s.step event) := by
  cases event with
  | deliver id idempotencyKey =>
      unfold EmailState.step
      dsimp only
      split
      · exact hs
      · rename_i hnew
        generalize hgiven : idempotencyKey.filter (· ≠ "") = given
        refine ⟨Table.distinct_upsert hs.distinct _, hs.once, hs.steady, ?_⟩
        refine keyHeld_deliver hs hnew fun hkey => ?_
        have hsome : given = some key := hkey
        subst hsome
        rfl
  | step id fails =>
      unfold EmailState.Guarded at hguard
      unfold EmailState.step
      dsimp only at hguard ⊢
      split
      · exact hs
      · rename_i call hfound
        have hcall := Table.mem_of_lookup hfound
        cases hother : call.idempotencyKey with
        | some other =>
            have hadvance : s.advance call fails = s.advanceKeyed other fails call.stage := by
              unfold EmailState.advance
              rw [hother]
            rw [hadvance, ← hother]
            exact held_advance hs hdeadline hcall hother (hguard call hfound)
        | none =>
            obtain ⟨stage, hadvance⟩ : ∃ stage, s.advance call fails = (s, stage) := by
              unfold EmailState.advance
              rw [hother]
              exact ⟨_, rfl⟩
            rw [hadvance, ← hother]
            exact held_stage hs hcall fun h => absurd (hother.symm.trans h) (Option.some_ne_none key).symm
  | crash id =>
      unfold EmailState.Guarded at hguard
      unfold EmailState.step
      dsimp only at hguard ⊢
      split
      · exact hs
      · rename_i call hfound
        have hcall := Table.mem_of_lookup hfound
        split
        · exact hs
        · refine held_stage hs hcall fun hkey => ?_
          refine keyHeld_quiet hs hcall hkey (fun sent hholds => ?_) (fun hreturned => ?_)
            fun hsending => .inr ⟨DeliverStage.noConfusion, ?_⟩
          · cases hholds
          · cases hreturned
          have hstep := hguard call hfound hkey
          rw [hsending] at hstep
          exact hstep rfl
  | wait milliseconds =>
      have hstatus : (s.step (.wait milliseconds)).status key = s.status key :=
        hs.steady _ (Nat.le_add_right _ _) hnow
      refine ⟨hs.distinct, hs.once, hs.steady.of_le (Nat.le_add_right _ _) hnow, ?_⟩
      refine ⟨?_, hs.held.alone, ?_, ?_, hs.held.returned⟩
      · intro call hcall hkey sent hsent
        rw [hstatus]
        exact hs.held.held call hcall hkey sent hsent
      · rw [hstatus]
        exact hs.held.marked
      · rw [hstatus]
        exact hs.held.completed

theorem now_step (s : EmailState) (event : EmailEvent) : s.now ≤ (s.step event).now := by
  cases event with
  | deliver id idempotencyKey =>
      unfold EmailState.step
      dsimp only
      split <;> exact le_rfl
  | step id fails =>
      unfold EmailState.step
      dsimp only
      split
      · exact le_rfl
      · rename_i call hfound
        show s.now ≤ (s.advance call fails).1.now
        unfold EmailState.advance
        split
        · exact (now_advanceKeyed _).ge
        · exact le_rfl
  | crash id =>
      unfold EmailState.step
      dsimp only
      split
      · exact le_rfl
      · split <;> exact le_rfl
  | wait milliseconds => exact Nat.le_add_right _ _

end Steps

/-! ## Runs -/

theorem held_of_fresh {s : EmailState} {key : String} (h : s.Fresh key) (deadline : Timestamp) :
    Held key deadline s where
  distinct := h.distinct
  once := (List.count_eq_zero.mpr h.unsent).trans_le (Nat.zero_le 1)
  steady := Expiring.steady_of_get_eq_none h.absent
  held := by
    refine ⟨?_, ?_, fun hsent => absurd hsent h.unsent, ?_, ?_⟩
    · exact fun call hcall hkey => absurd hkey (h.unused call hcall)
    · exact fun call hcall _ _ hkey => absurd hkey (h.unused call hcall)
    · exact fun hcompleted => nomatch h.absent.symm.trans hcompleted
    · rintro ⟨call, hcall, hkey, -⟩
      exact absurd hkey (h.unused call hcall)

theorem delivered_of_held {s : EmailState} {key : String} {deadline : Timestamp} (hs : Held key deadline s) :
    s.Delivered key where
  once := hs.once
  sent hreturned hover := by
    rcases hs.held.returned hreturned with hsent | ⟨call, hcall, hkey, hsending⟩
    · exact hsent
    · have h := hover call hcall hkey
      rw [hsending] at h
      cases h

/-- Within the lifetime of a key, however its calls interleave, fail and are cut off: if every step is guarded, its
email is sent once at most, and has been once a call has returned and none is in progress. -/
theorem email_sent_once {start : EmailState} {key : String} {events : List EmailEvent} (hfresh : start.Fresh key)
    (hwithin : (Machine.run EmailState.step start events).now < start.now + idempotencyTtlMs)
    (hguarded : Machine.Meets EmailState.step (fun s => s.Guarded key) start events) :
    (Machine.run EmailState.step start events).Delivered key := by
  let deadline := start.now + idempotencyTtlMs
  have hinvariant := Machine.invariant_of_meets
    (I := fun s => start.now ≤ s.now ∧ (s.now < deadline → Held key deadline s)) ?_
    ⟨le_rfl, fun _ => held_of_fresh hfresh deadline⟩ hguarded
  · exact delivered_of_held (hinvariant.2 hwithin)
  · rintro s event ⟨hlater, hheld⟩ hguard
    have hnow := now_step s event
    refine ⟨hlater.trans hnow, fun hbefore => ?_⟩
    exact held_step (hheld (hnow.trans_lt hbefore)) (Nat.add_le_add_right hlater _) hguard hbefore

theorem fresh_start (key : String) : ({} : EmailState).Fresh key where
  distinct := List.nodup_nil
  unused := nofun
  absent := rfl
  unsent := List.not_mem_nil

/-- A call delivers an email that a second one finds sent. -/
def deliveredTwice : List EmailEvent :=
  [.deliver 1 (some "welcome"), .step 1 false, .step 1 false, .step 1 false, .deliver 2 (some "welcome"),
    .step 1 false, .step 1 false, .wait 1000, .step 2 false]

theorem welcome_sent_once : (Machine.run EmailState.step {} deliveredTwice).Delivered "welcome" :=
  email_sent_once (fresh_start "welcome") (by decide) (by decide)

/-- The first call is cut off before it sends, and the second one answers that the email was sent. -/
def cutOff : List EmailEvent :=
  [.deliver 1 (some "welcome"), .step 1 false, .step 1 false, .step 1 false, .crash 1,
    .deliver 2 (some "welcome"), .step 2 false, .step 2 false, .step 2 false]

/-- The first call sends the email but fails to mark it as completed and removes the key; the second one sends it
again. -/
def unmarked : List EmailEvent :=
  [.deliver 1 (some "welcome"), .step 1 false, .step 1 false, .step 1 false, .step 1 false, .step 1 true,
    .step 1 false, .step 1 false, .deliver 2 (some "welcome"), .step 2 false, .step 2 false, .step 2 false,
    .step 2 false, .step 2 false]

theorem email_lost_or_sent_twice :
    ¬ (Machine.run EmailState.step {} cutOff).Delivered "welcome" ∧
      ¬ (Machine.run EmailState.step {} unmarked).Delivered "welcome" := by
  refine ⟨fun h => ?_, fun h => ?_⟩
  · exact absurd (h.sent (by decide) (by decide)) (by decide)
  · exact absurd h.once (by decide)

end DealFlow360.Email
