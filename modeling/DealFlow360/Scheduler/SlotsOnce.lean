import DealFlow360.Scheduler.Scheduler
import DealFlow360.Lib.Claims
import DealFlow360.Lib.Machine

/-!
# Slots are emitted once

What keeps a slot from being emitted again is its lock as long as that lasts,
or, without a lock, the last slot noted for the schedule. A tick that comes
late finds the lock gone, or notes an older slot over a newer one.

Slots are claimed with `Lib.Claims`, and what is claimed lasts as long as its
lock (`Lib.Expiring`). Without a lock the notes of the single instance play
that part: they only go forward (`advances_add`, `advances_start`) as long as
no tick is overtaken.

- `stepped_take` and `stepped_idle`: what a step takes or leaves;
- `slots_emitted_once`: in every interleaving of ticks of any number of
  instances with a lock, and of one without, a slot is emitted once, where
  locks last and notes are not put back.

`slot_emitted_twice` has both ways in which it fails.
-/

namespace DealFlow360.Scheduler

/-! ## Slots taken by ticks -/

/-- The slot that the tick has taken and not emitted yet. -/
def TickPhase.claim : TickPhase → Option Slot
  | .building _ schedule slot => some (schedule.name, slot)
  | _ => none

def Tick.claim (tick : Tick) : Option Slot := tick.phase.claim

/-! ## Notes of the last slots -/

section Notes

variable {scheduler : Instance} {name : String} {now slot : Timestamp} {schedule : RegisteredSchedule}

theorem last_setLast (scheduler : Instance) (name other : String) (slot : Timestamp) :
    (scheduler.setLast name slot).last other = if name = other then some slot else scheduler.last other := by
  unfold Instance.setLast Instance.last
  rw [Table.lookup_upsert]
  by_cases h : name = other
  · rw [if_pos h, if_pos h]
    rfl
  · rw [if_neg h, if_neg h]

/-- No note of a slot is lost or put back. -/
def Advances (scheduler scheduler' : Instance) : Prop :=
  ∀ name last, scheduler.last name = some last → ∃ later, scheduler'.last name = some later ∧ last ≤ later

theorem Advances.refl (scheduler : Instance) : Advances scheduler scheduler :=
  fun _ last h => ⟨last, h, le_refl last⟩

theorem Advances.trans {first second third : Instance} (h : Advances first second) (h' : Advances second third) :
    Advances first third := by
  intro name last hlast
  obtain ⟨later, hlater, hle⟩ := h name last hlast
  obtain ⟨latest, hlatest, hle'⟩ := h' name later hlater
  exact ⟨latest, hlatest, hle.trans hle'⟩

theorem advances_setLast (hlast : ∀ last, scheduler.last name = some last → last ≤ slot) :
    Advances scheduler (scheduler.setLast name slot) := by
  intro other last hother
  rw [last_setLast]
  by_cases h : name = other
  · subst h
    rw [if_pos rfl]
    exact ⟨slot, rfl, hlast last hother⟩
  · rw [if_neg h]
    exact ⟨last, hother, le_refl last⟩

/-- Only slots of registered schedules are noted. -/
def Instance.Sound (scheduler : Instance) : Prop :=
  ∀ name last, scheduler.last name = some last → ∃ schedule ∈ scheduler.definitions, schedule.name = name

theorem sound_setLast (hs : scheduler.Sound) (hschedule : schedule ∈ scheduler.definitions) :
    (scheduler.setLast schedule.name slot).Sound := by
  intro name last hlast
  rw [last_setLast] at hlast
  split at hlast
  · rename_i hname
    exact ⟨schedule, hschedule, hname⟩
  · exact hs name last hlast

theorem sound_align (hs : scheduler.Sound) (hschedule : schedule ∈ scheduler.definitions) :
    (scheduler.align now schedule).Sound := by
  unfold Instance.align
  split
  · exact hs
  · exact sound_setLast hs hschedule

@[simp] theorem definitions_align : (scheduler.align now schedule).definitions = scheduler.definitions := by
  unfold Instance.align
  split <;> rfl

@[simp] theorem id_align : (scheduler.align now schedule).id = scheduler.id := by
  unfold Instance.align
  split <;> rfl

theorem advances_align {aligned : Instance} (h : Advances scheduler aligned)
    (hlast : ∀ slot, schedule.resolveSlot now = some slot →
      ∀ last, scheduler.last schedule.name = some last → last ≤ slot) :
    Advances scheduler (aligned.align now schedule) := by
  unfold Instance.align
  split
  · exact h
  · rename_i slot hslot
    intro name last hname
    rw [last_setLast]
    by_cases hsame : schedule.name = name
    · subst hsame
      rw [if_pos rfl]
      exact ⟨slot, rfl, hlast slot hslot last hname⟩
    · rw [if_neg hsame]
      exact h name last hname

/-- What starting an instance does: it aligns the schedules, one after the other. -/
theorem start_cases (scheduler : Instance) (now : Timestamp) :
    scheduler.start now = scheduler ∨
      scheduler.start now =
        { scheduler.definitions.foldl (fun aligned schedule => aligned.align now schedule) scheduler with
          started := true } := by
  unfold Instance.start
  split
  · exact .inl rfl
  · exact .inr rfl

theorem align_all (scheduler : Instance) (now : Timestamp) {P : Instance → Prop} (hscheduler : P scheduler)
    (halign : ∀ schedule ∈ scheduler.definitions, ∀ aligned : Instance,
      aligned.definitions = scheduler.definitions → P aligned → P (aligned.align now schedule)) :
    P (scheduler.definitions.foldl (fun aligned schedule => aligned.align now schedule) scheduler) := by
  have hall (schedules : List RegisteredSchedule) (hsub : ∀ schedule ∈ schedules, schedule ∈ scheduler.definitions)
      (aligned : Instance) (hsame : aligned.definitions = scheduler.definitions) (haligned : P aligned) :
      P (schedules.foldl (fun aligned schedule => aligned.align now schedule) aligned) := by
    induction schedules generalizing aligned with
    | nil => exact haligned
    | cons schedule schedules ih =>
        refine ih (fun other hother => hsub other (List.mem_cons_of_mem _ hother)) _ ?_ ?_
        · rw [definitions_align, hsame]
        · exact halign schedule (hsub schedule List.mem_cons_self) aligned hsame haligned
  exact hall _ (fun _ h => h) scheduler rfl hscheduler

theorem add_cases (scheduler : Instance) (schedule : RegisteredSchedule) (now : Timestamp) :
    scheduler.add schedule now = { scheduler with definitions := scheduler.definitions ++ [schedule] } ∨
      scheduler.add schedule now =
        ({ scheduler with definitions := scheduler.definitions ++ [schedule] } : Instance).align now schedule := by
  unfold Instance.add
  dsimp only
  split
  · exact .inr rfl
  · exact .inl rfl

/-- A schedule that is registered is added under a name that is new. -/
theorem register_ok {definition : ScheduleDefinition} {registered : Instance}
    (h : scheduler.register definition now = .ok registered) :
    ∃ schedule, (∀ other ∈ scheduler.definitions, other.name ≠ schedule.name) ∧
      registered = scheduler.add schedule now := by
  unfold Instance.register at h
  dsimp only at h
  split at h
  · cases h
  · split at h
    · cases h
    · rename_i hnew
      split at h
      · cases h
      · split at h
        · cases h
        · refine ⟨_, fun other hother hname => ?_, (Except.ok.inj h).symm⟩
          exact hnew (List.any_eq_true.mpr ⟨other, hother, decide_eq_true hname⟩)

/-- A slot that is noted for a new schedule replaces none. -/
theorem advances_add (hs : scheduler.Sound) (hnew : ∀ other ∈ scheduler.definitions, other.name ≠ schedule.name) :
    Advances scheduler (scheduler.add schedule now) := by
  have hadded : Advances scheduler { scheduler with definitions := scheduler.definitions ++ [schedule] } :=
    Advances.refl scheduler
  rcases add_cases scheduler schedule now with hadd | hadd
  · rw [hadd]
    exact hadded
  · rw [hadd]
    refine advances_align hadded fun slot _ last hlast => ?_
    obtain ⟨other, hother, hname⟩ := hs schedule.name last hlast
    exact absurd hname (hnew other hother)

theorem sound_add (hs : scheduler.Sound) : (scheduler.add schedule now).Sound := by
  have hadded : ({ scheduler with definitions := scheduler.definitions ++ [schedule] } : Instance).Sound := by
    intro name last hlast
    obtain ⟨other, hother, hname⟩ := hs name last hlast
    exact ⟨other, List.mem_append_left _ hother, hname⟩
  rcases add_cases scheduler schedule now with hadd | hadd
  · rw [hadd]
    exact hadded
  · rw [hadd]
    exact sound_align hadded (List.mem_append_right _ (List.mem_singleton_self schedule))

@[simp] theorem id_add : (scheduler.add schedule now).id = scheduler.id := by
  rcases add_cases scheduler schedule now with hadd | hadd
  · rw [hadd]
  · rw [hadd, id_align]

theorem sound_start (hs : scheduler.Sound) : (scheduler.start now).Sound := by
  rcases start_cases scheduler now with hstart | hstart
  · rw [hstart]
    exact hs
  · rw [hstart]
    have hall := align_all scheduler now (P := Instance.Sound) hs fun schedule hschedule aligned hsame haligned =>
      sound_align haligned (hsame ▸ hschedule)
    exact hall

@[simp] theorem id_start : (scheduler.start now).id = scheduler.id := by
  rcases start_cases scheduler now with hstart | hstart
  · rw [hstart]
  · rw [hstart]
    exact align_all scheduler now (P := fun aligned => aligned.id = scheduler.id) rfl
      fun schedule _ aligned _ haligned => id_align.trans haligned

/-- Where no slot noted is later than the one that its schedule is in, none is put back. -/
theorem advances_start (hlast : ∀ schedule ∈ scheduler.definitions, ∀ slot, schedule.resolveSlot now = some slot →
      ∀ last, scheduler.last schedule.name = some last → last ≤ slot) :
    Advances scheduler (scheduler.start now) := by
  rcases start_cases scheduler now with hstart | hstart
  · rw [hstart]
    exact .refl scheduler
  · rw [hstart]
    exact align_all scheduler now (P := Advances scheduler) (.refl scheduler)
      fun schedule hschedule aligned _ haligned => advances_align haligned (hlast schedule hschedule)

end Notes

/-! ## Steps -/

namespace SchedulerState

/-- A lock that was taken is still there when a tick tries it; without a lock, no slot is noted over a later one. -/
def GuardedStep (lock : Bool) (s : SchedulerState) (tick : Tick) (fails : Bool) : Prop :=
  match tick.phase with
  | .acquiring _ schedule slot => fails = false → (schedule.name, slot) ∈ s.taken →
      (Expiring.get s.now (lockKey schedule.name slot) s.locks).isSome
  | .reaching index => lock = false → ∀ scheduler, s.getInstance tick.scheduler = some scheduler →
      ∀ schedule, scheduler.definitions[index]? = some schedule → ∀ slot, schedule.resolveSlot tick.now = some slot →
        ∀ last, scheduler.last schedule.name = some last → last ≤ slot
  | _ => True

def Guarded (lock : Bool) (s : SchedulerState) : SchedulerEvent → Prop
  | .step id fails => ∀ tick, Table.lookup Tick.id id s.ticks = some tick → s.GuardedStep lock tick fails
  | .start id reading => lock = false → ∀ scheduler, s.getInstance id = some scheduler →
      ∀ schedule ∈ scheduler.definitions, ∀ slot, schedule.resolveSlot reading = some slot →
        ∀ last, scheduler.last schedule.name = some last → last ≤ slot
  | _ => True

instance (lock : Bool) (s : SchedulerState) (tick : Tick) (fails : Bool) :
    Decidable (s.GuardedStep lock tick fails) := by
  unfold GuardedStep
  cases tick.phase with
  | acquiring index schedule slot => exact inferInstance
  | reaching index =>
      exact inferInstanceAs (Decidable (lock = false → ∀ scheduler ∈ s.getInstance tick.scheduler,
        ∀ schedule ∈ scheduler.definitions[index]?, ∀ slot ∈ schedule.resolveSlot tick.now,
          ∀ last ∈ scheduler.last schedule.name, last ≤ slot))
  | building | emitting | returned | threw => exact .isTrue trivial

instance (lock : Bool) (s : SchedulerState) : ∀ event, Decidable (s.Guarded lock event)
  | .step id fails => inferInstanceAs (Decidable (∀ tick ∈ Table.lookup Tick.id id s.ticks,
      s.GuardedStep lock tick fails))
  | .start id reading => inferInstanceAs (Decidable (lock = false → ∀ scheduler ∈ s.getInstance id,
      ∀ schedule ∈ scheduler.definitions, ∀ slot ∈ schedule.resolveSlot reading,
        ∀ last ∈ scheduler.last schedule.name, last ≤ slot))
  | .create .. | .register .. | .close .. | .tick .. | .wait .. => .isTrue trivial

end SchedulerState

/-- Slots belong to one tick each; without a lock there is one instance, which has noted every slot taken or a
later one. -/
structure Once (lock : Bool) (s : SchedulerState) : Prop where
  claims : Claims.Held Tick.id Tick.claim s.taken s.emitted s.ticks
  instances : Table.Distinct Instance.id s.instances
  sound : ∀ scheduler ∈ s.instances, scheduler.Sound
  single : lock = false → ∀ first ∈ s.instances, ∀ second ∈ s.instances, first = second
  noted : lock = false → ∀ slot ∈ s.taken, ∃ scheduler ∈ s.instances, ∃ last,
    scheduler.last slot.1 = some last ∧ slot.2 ≤ last
  unlocked : lock = false → ∀ tick ∈ s.ticks, ∀ index schedule slot, tick.phase ≠ .acquiring index schedule slot

section Steps

variable {lock : Bool} {s : SchedulerState} {scheduler scheduler' : Instance}

/-- An instance is written, with all its notes kept or replaced by later ones. -/
theorem once_setInstance (hs : Once lock s) (hmem : scheduler ∈ s.instances) (hid : scheduler'.id = scheduler.id)
    (hsound : scheduler'.Sound) (hadvances : lock = false → Advances scheduler scheduler') :
    Once lock (s.setInstance scheduler') where
  claims := hs.claims
  instances := Table.distinct_upsert hs.instances scheduler'
  sound other hother := by
    rcases Table.mem_upsert hother with rfl | hother
    · exact hsound
    · exact hs.sound other hother
  single hlock first hfirst second hsecond := by
    have hnew (other : Instance) (hother : other ∈ Table.upsert Instance.id scheduler' s.instances) :
        other = scheduler' := by
      rcases (Table.mem_upsert_iff hs.instances).mp hother with heq | ⟨hother, hne⟩
      · exact heq
      · exact absurd ((congrArg Instance.id (hs.single hlock other hother scheduler hmem)).trans hid.symm) hne
    rw [hnew first hfirst, hnew second hsecond]
  noted hlock slot hslot := by
    obtain ⟨other, hother, last, hlast, hle⟩ := hs.noted hlock slot hslot
    rw [hs.single hlock other hother scheduler hmem] at hlast
    obtain ⟨later, hlater, hle'⟩ := hadvances hlock slot.1 last hlast
    exact ⟨scheduler', Table.mem_upsert_self scheduler' s.instances, later, hlater, hle.trans hle'⟩
  unlocked := hs.unlocked

/-- A step of a tick. -/
structure Stepped (lock : Bool) (s : SchedulerState) (tick : Tick) (next : SchedulerState × TickPhase) : Prop where
  move : Claims.Move s.taken s.emitted tick.claim next.1.taken next.1.emitted next.2.claim
  instances : Table.Distinct Instance.id next.1.instances
  sound : ∀ scheduler ∈ next.1.instances, scheduler.Sound
  single : lock = false → ∀ first ∈ next.1.instances, ∀ second ∈ next.1.instances, first = second
  noted : lock = false → ∀ slot ∈ next.1.taken, ∃ scheduler ∈ next.1.instances, ∃ last,
    scheduler.last slot.1 = some last ∧ slot.2 ≤ last
  unlocked : lock = false → ∀ index schedule slot, next.2 ≠ .acquiring index schedule slot

variable {tick : Tick} {fails : Bool}

theorem once_of_stepped {next : SchedulerState × TickPhase} (hs : Once lock s) (htick : tick ∈ s.ticks)
    (h : Stepped lock s tick next) :
    Once lock { next.1 with ticks := Table.upsert Tick.id { tick with phase := next.2 } s.ticks } where
  claims := hs.claims.move htick rfl h.move
  instances := h.instances
  sound := h.sound
  single := h.single
  noted := h.noted
  unlocked hlock other hother := by
    rcases Table.mem_upsert hother with rfl | hother
    · exact h.unlocked hlock
    · exact hs.unlocked hlock other hother

/-- A step that takes and emits nothing. -/
theorem stepped_idle {s' : SchedulerState} {phase : TickPhase} (hs : Once lock s') (htaken : s'.taken = s.taken)
    (hemitted : s'.emitted = s.emitted) (hclaim : phase.claim = none)
    (hphase : lock = false → ∀ index schedule slot, phase ≠ .acquiring index schedule slot) :
    Stepped lock s tick (s', phase) where
  move := by
    rw [htaken, hemitted, hclaim]
    exact .idle
  instances := hs.instances
  sound := hs.sound
  single := hs.single
  noted := hs.noted
  unlocked := hphase

/-- A free slot is taken. -/
theorem stepped_take {s' : SchedulerState} {index : ℕ} {schedule : RegisteredSchedule} {slot : Timestamp}
    (hs : Once lock s') (htaken : s'.taken = s.taken) (hemitted : s'.emitted = s.emitted)
    (hfree : (schedule.name, slot) ∉ s.taken)
    (hnoted : lock = false → ∃ scheduler ∈ s'.instances, ∃ last,
      scheduler.last schedule.name = some last ∧ slot ≤ last) :
    Stepped lock s tick (s'.take index schedule slot) := by
  have hinstances : (s'.take index schedule slot).1.instances = s'.instances := by
    unfold SchedulerState.take
    dsimp only
    split <;> rfl
  have htake : (s'.take index schedule slot).1.taken = s.taken ++ [(schedule.name, slot)] := by
    rw [← htaken]
    unfold SchedulerState.take
    dsimp only
    split <;> rfl
  refine ⟨?_, ?_, ?_, ?_, ?_, ?_⟩
  · rw [htake]
    unfold SchedulerState.take
    dsimp only
    split
    · show Claims.Move s.taken s.emitted tick.claim _ s'.emitted (some (schedule.name, slot))
      rw [hemitted]
      exact .takes hfree
    · show Claims.Move s.taken s.emitted tick.claim _ (s'.emitted ++ [(schedule.name, slot)]) none
      rw [hemitted]
      exact .fires hfree
  · rw [hinstances]
    exact hs.instances
  · rw [hinstances]
    exact hs.sound
  · rw [hinstances]
    exact hs.single
  · rw [hinstances, htake]
    intro hlock other hother
    rcases List.mem_append.mp hother with hother | hother
    · exact hs.noted hlock other (htaken ▸ hother)
    · cases List.mem_singleton.mp hother
      exact hnoted hlock
  · intro _ index' schedule' slot'
    unfold SchedulerState.take
    dsimp only
    split <;> nofun

theorem stepped_reach (hs : Once lock s) {index : ℕ} (hscheduler : scheduler ∈ s.instances) {now : Timestamp}
    (hguard : lock = false → ∀ schedule, scheduler.definitions[index]? = some schedule → ∀ slot,
      schedule.resolveSlot now = some slot → ∀ last, scheduler.last schedule.name = some last → last ≤ slot) :
    Stepped lock s tick (s.reach lock scheduler now index) := by
  unfold SchedulerState.reach
  cases hschedule : scheduler.definitions[index]? with
  | none => exact stepped_idle hs rfl rfl rfl fun _ => nofun
  | some schedule =>
      dsimp only
      cases hslot : schedule.resolveSlot now with
      | none => exact stepped_idle hs rfl rfl rfl fun _ => nofun
      | some slot =>
          dsimp only
          split
          · exact stepped_idle hs rfl rfl rfl fun _ => nofun
          · rename_i hother
            have hsound := @sound_setLast _ slot _ (hs.sound scheduler hscheduler)
              (List.mem_of_getElem? hschedule)
            have hnoted : Once lock (s.setInstance (scheduler.setLast schedule.name slot)) :=
              once_setInstance hs hscheduler rfl hsound fun hlock =>
                advances_setLast (hguard hlock schedule hschedule slot hslot)
            cases lock with
            | true => exact stepped_idle hnoted rfl rfl rfl nofun
            | false =>
                refine stepped_take hnoted rfl rfl ?_ fun _ => ?_
                · -- a slot taken before is noted, or a later one is, and neither is this one
                  intro htaken
                  obtain ⟨other, hmem, last, hlast, hle⟩ := hs.noted rfl _ htaken
                  rw [hs.single rfl other hmem scheduler hscheduler] at hlast
                  have hback := hguard rfl schedule hschedule slot hslot last hlast
                  exact hother (hlast.trans (congrArg some (le_antisymm hback hle)))
                · refine ⟨_, Table.mem_upsert_self _ s.instances, slot, ?_, le_refl slot⟩
                  rw [last_setLast, if_pos rfl]

theorem stepped_advance (hs : Once lock s) (htick : tick ∈ s.ticks) (hguard : s.GuardedStep lock tick fails) :
    Stepped lock s tick (s.advance lock tick fails) := by
  have hidle (index : ℕ) : Stepped lock s tick (s, .reaching index) :=
    stepped_idle hs rfl rfl rfl fun _ => nofun
  unfold SchedulerState.advance
  unfold SchedulerState.GuardedStep at hguard
  cases hphase : tick.phase with
  | reaching index =>
      rw [hphase] at hguard
      dsimp only
      cases hscheduler : s.getInstance tick.scheduler with
      | none => exact stepped_idle hs rfl rfl rfl fun _ => nofun
      | some scheduler =>
          exact stepped_reach hs (Table.mem_of_lookup hscheduler) fun hlock => hguard hlock scheduler hscheduler
  | acquiring index schedule slot =>
      rw [hphase] at hguard
      dsimp only
      cases fails with
      | true => exact hidle (index + 1)
      | false =>
          rw [if_neg Bool.false_ne_true]
          cases hacquired : s.tryAcquire schedule slot with
          | mk acquired locks =>
              cases acquired with
              | false => exact hidle (index + 1)
              | true =>
                  have hnone := Expiring.get_of_setNx (congrArg Prod.fst hacquired)
                  refine @stepped_take _ _ _ { s with locks } _ _ _ ⟨hs.claims, hs.instances, hs.sound, hs.single,
                    hs.noted, hs.unlocked⟩ rfl rfl ?_ ?_
                  · intro htaken
                    have hlocked := hguard rfl htaken
                    rw [hnone] at hlocked
                    cases hlocked
                  · intro hlock
                    exact absurd hphase (hs.unlocked hlock tick htick index schedule slot)
  | building index schedule slot =>
      dsimp only
      split
      · exact stepped_idle hs rfl rfl rfl fun _ => nofun
      · have hclaim : tick.claim = some (schedule.name, slot) := by
          unfold Tick.claim
          rw [hphase]
          rfl
        exact ⟨.finishes hclaim, hs.instances, hs.sound, hs.single, hs.noted, fun _ => nofun⟩
  | emitting index => exact hidle (index + 1)
  | returned => exact stepped_idle hs rfl rfl rfl fun _ => nofun
  | threw => exact stepped_idle hs rfl rfl rfl fun _ => nofun

theorem once_step {event : SchedulerEvent} (hs : Once lock s) (hguard : s.Guarded lock event) :
    Once lock (s.step lock event) := by
  cases event with
  | create id enabled =>
      unfold SchedulerState.step
      dsimp only
      split
      · exact hs
      · split
        · rename_i hnew hallowed
          have hmem {other : Instance}
              (hother : other ∈ Table.upsert Instance.id { id, enabled } s.instances) :
              other = { id, enabled } ∨ other ∈ s.instances := Table.mem_upsert hother
          have hempty : lock = false → s.instances = [] := by
            intro hlock
            rw [hlock, Bool.false_or] at hallowed
            exact List.isEmpty_iff.mp hallowed
          refine ⟨hs.claims, Table.distinct_upsert hs.instances _, ?_, ?_, ?_, hs.unlocked⟩
          · intro other hother
            rcases hmem hother with rfl | hother
            · intro name last hlast
              cases hlast
            · exact hs.sound other hother
          · intro hlock first hfirst second hsecond
            rcases hmem hfirst with rfl | hfirst
            · rcases hmem hsecond with rfl | hsecond
              · rfl
              · rw [hempty hlock] at hsecond
                cases hsecond
            · rw [hempty hlock] at hfirst
              cases hfirst
          · intro hlock slot hslot
            obtain ⟨other, hother, -⟩ := hs.noted hlock slot hslot
            rw [hempty hlock] at hother
            cases hother
        · exact hs
  | register id definition reading =>
      unfold SchedulerState.step
      dsimp only
      split
      · exact hs
      · rename_i scheduler hscheduler
        have hmem := Table.mem_of_lookup hscheduler
        split
        · exact hs
        · rename_i registered hregistered
          obtain ⟨schedule, hnew, rfl⟩ := register_ok hregistered
          have hsound := hs.sound scheduler hmem
          exact once_setInstance hs hmem id_add (sound_add hsound) fun _ => advances_add hsound hnew
  | start id reading =>
      unfold SchedulerState.step
      dsimp only
      split
      · exact hs
      · rename_i scheduler hscheduler
        have hmem := Table.mem_of_lookup hscheduler
        exact once_setInstance hs hmem id_start (sound_start (hs.sound scheduler hmem)) fun hlock =>
          advances_start (hguard hlock scheduler hscheduler)
  | close id =>
      unfold SchedulerState.step
      dsimp only
      split
      · exact hs
      · rename_i scheduler hscheduler
        have hmem := Table.mem_of_lookup hscheduler
        exact once_setInstance hs hmem rfl (hs.sound scheduler hmem) fun _ => .refl scheduler
  | tick id scheduler reading =>
      unfold SchedulerState.step
      dsimp only
      split
      · split
        · refine ⟨hs.claims.upsert_idle rfl, hs.instances, hs.sound, hs.single, hs.noted, ?_⟩
          intro hlock other hother
          rcases Table.mem_upsert hother with rfl | hother
          · intro index schedule slot hphase
            cases hphase
          · exact hs.unlocked hlock other hother
        · exact hs
      · exact hs
  | step id fails =>
      unfold SchedulerState.step
      dsimp only
      split
      · exact hs
      · rename_i tick htick
        have hmem := Table.mem_of_lookup htick
        exact once_of_stepped hs hmem (stepped_advance hs hmem (hguard tick htick))
  | wait milliseconds => exact ⟨hs.claims, hs.instances, hs.sound, hs.single, hs.noted, hs.unlocked⟩

/-- For any number of instances with a lock, and for one without: where every lock that was taken is still there
when a tick tries it, and without a lock no slot is noted over a later one, each slot of a schedule is emitted at
most once. -/
theorem slots_emitted_once (lock : Bool) (events : List SchedulerEvent)
    (hguarded : Machine.Meets (SchedulerState.step lock) (SchedulerState.Guarded lock) {} events) :
    (Machine.run (SchedulerState.step lock) {} events).emitted.Nodup := by
  have hempty : Once lock {} := by
    refine ⟨Claims.held_nil, List.nodup_nil, ?_, ?_, ?_, ?_⟩
    · exact fun _ h => absurd h List.not_mem_nil
    · exact fun _ _ h => absurd h List.not_mem_nil
    · exact fun _ _ h => absurd h List.not_mem_nil
    · exact fun _ _ h => absurd h List.not_mem_nil
  exact (Machine.invariant_of_meets (I := Once lock) (fun _ _ => once_step) hempty hguarded).claims.nodup

end Steps

/-- A tick and its steps. -/
def wholeTick (id scheduler : Id) (reading : Timestamp) (steps : ℕ) : List SchedulerEvent :=
  .tick id scheduler reading :: List.replicate steps (.step id false)

/-- An instance with two schedules of a second. -/
def twoSchedules (scheduler : Id) : List SchedulerEvent :=
  [.create scheduler true,
    .register scheduler { name := "first", intervalMs := some 1000 } 0,
    .register scheduler { name := "second", intervalMs := some 1000 } 0, .start scheduler 0, .wait 1000]

/-- Two instances come to the same slots, one after the other. -/
def sharedSlots : List SchedulerEvent :=
  twoSchedules 0 ++ twoSchedules 1 ++ wholeTick 0 0 2000 7 ++ wholeTick 1 1 2000 5

theorem shared_slots_emitted_once :
    (Machine.run (SchedulerState.step true) {} sharedSlots).emitted = [("first", 2000), ("second", 2000)] ∧
      (Machine.run (SchedulerState.step true) {} sharedSlots).emitted.Nodup :=
  ⟨by decide, slots_emitted_once true sharedSlots (by decide)⟩

/-- Without a lock: the handlers of the first schedule's event are slow, and the next tick overtakes. -/
def overtakenTick : List SchedulerEvent :=
  twoSchedules 0 ++ wholeTick 0 0 1000 1 ++ wholeTick 1 0 2000 5 ++ [.step 0 false, .step 0 false] ++
    wholeTick 2 0 2500 5

/-- With locks: a tick of the second instance reaches the schedule when the lock of its slot is gone. -/
def lateTick : List SchedulerEvent :=
  twoSchedules 0 ++ twoSchedules 1 ++ wholeTick 0 0 2000 7 ++ [.tick 1 1 2000, .wait 1000, .step 1 false,
    .step 1 false]

/-- The overtaken tick notes its older slot over the newer one, so that is emitted again; the late tick takes the
lock again. -/
theorem slot_emitted_twice :
    ¬ (Machine.run (SchedulerState.step false) {} overtakenTick).emitted.Nodup ∧
      ¬ (Machine.run (SchedulerState.step true) {} lateTick).emitted.Nodup :=
  ⟨by decide, by decide⟩

end DealFlow360.Scheduler
