import DealFlow360.Approval
import DealFlow360.Defaults

/-!
# A round of approvals

A round is the list `buildApprovalSteps` made and the decisions taken on it so
far. Any actor may call `applyApprovalDecision` with anything, any number of
times: a failing call leaves the list as it is. `Round.Sound` is what every
such sequence of calls keeps.

`play_cases` inverts one call: it changed nothing, or it settled the first
pending step, and of the others only pending steps have changed, into
invalidated ones, and only by a rejection. The invariant `Sound` is kept by
either case, so it holds after any number of calls, and the four statements
about a round are read off it:

- the round is approved exactly when every step that was built has an approval
  of its own;
- decisions come in the order of the steps;
- an approved step was approved by an actor of its role;
- a rejection leaves nothing pending, and nobody can decide any more.

`approvalRound_sound` assembles them for any chain, any level limit and any
sequence of calls.
-/

namespace DealFlow360

/-- A call that succeeded, with the step it decided. -/
structure Decided where
  step : QuoteApproval
  call : DecisionCall
  deriving DecidableEq

/-- The approvals of a quote and the successful calls on them, oldest first. -/
structure Round where
  approvals : List QuoteApproval
  decided : List Decided := []

namespace Round

/-- One call, successful or not. -/
def play (round : Round) (call : DecisionCall) : Round :=
  match applyApprovalDecision round.approvals call with
  | .error _ => round
  | .ok next =>
      let step := round.approvals.find? fun item => item.id = call.approvalId
      { approvals := next
        decided := round.decided ++ (step.map fun step => { step, call : Decided }).toList }

def playAll (round : Round) (calls : List DecisionCall) : Round :=
  calls.foldl play round

/-- What a decision never touches. -/
def identity (item : QuoteApproval) : Id × Num × ApprovalRoleKey :=
  (item.id, item.stepOrder, item.roleKey)

/-- Before a rejection every step is pending or approved; after one none is pending. -/
inductive Phase (round : Round) : Prop where
  | running (hdecided : ∀ entry ∈ round.decided, entry.call.decision = .approved)
      (hstatus : ∀ item ∈ round.approvals, item.status = .pending ∨ item.status = .approved)
  | closed (hrejected : ∃ item ∈ round.approvals, item.status = .rejected)
      (hstatus : ∀ item ∈ round.approvals,
        item.status = .approved ∨ item.status = .rejected ∨ item.status = .invalidated)

structure Sound (built : List QuoteApproval) (round : Round) : Prop where
  steps : round.approvals.map identity = built.map identity
  distinct : (round.approvals.map (·.id)).Nodup
  carried : ∀ item ∈ round.approvals, item.status = .approved →
    ∃ entry ∈ round.decided, entry.step.id = item.id ∧ entry.call.decision = .approved ∧
      item.actorId = some entry.call.actor.id ∧ canActOnRole entry.call.actor item.roleKey = true
  settled : ∀ entry ∈ round.decided, ∀ item ∈ round.approvals, item.id = entry.step.id →
    item.status = entry.call.decision.status
  ordered : round.decided.Pairwise fun entry later => entry.step.stepOrder ≤ later.step.stepOrder
  waiting : ∀ entry ∈ round.decided, ∀ item ∈ round.approvals, item.status = .pending →
    entry.step.stepOrder ≤ item.stepOrder
  phase : Phase round

/-! ## One call -/

/-- A call does nothing, or settles a pending step that no pending step comes before. -/
theorem play_cases (round : Round) (call : DecisionCall) :
    ((∃ e, applyApprovalDecision round.approvals call = .error e) ∧ round.play call = round) ∨
      ∃ current ∈ round.approvals, current.status = .pending ∧
        (∀ item ∈ round.approvals, item.status = .pending → current.stepOrder ≤ item.stepOrder) ∧
        canActOnRole call.actor current.roleKey = true ∧
        round.play call =
          { approvals := round.approvals.map (call.settle current)
            decided := round.decided ++ [{ step := current, call }] } := by
  unfold play
  cases happly : applyApprovalDecision round.approvals call with
  | error e => exact .inl ⟨⟨e, rfl⟩, rfl⟩
  | ok next =>
      obtain ⟨current, hfind, hpending, hfirst, hrole, rfl⟩ := applyApprovalDecision_eq_ok.mp happly
      refine .inr ⟨current, List.mem_of_find?_eq_some hfind, hpending, hfirst, hrole, ?_⟩
      simp [hfind]

theorem settle_identity (call : DecisionCall) (current item : QuoteApproval) :
    identity (call.settle current item) = identity item := by
  obtain ⟨hid, horder, hrole⟩ := settle_keeps call current item
  rw [identity, identity, hid, horder, hrole]

/-- The step settled is marked with the decision; of the others only pending steps change, and only
into invalidated ones by a rejection. -/
theorem settle_status {round : Round} (hdistinct : (round.approvals.map (·.id)).Nodup)
    {current item : QuoteApproval} (hcurrent : current ∈ round.approvals)
    (hitem : item ∈ round.approvals) (call : DecisionCall) :
    (item = current ∧ call.settle current item = call.mark current) ∨
      (item.id ≠ current.id ∧ call.decision = .rejected ∧ item.status = .pending ∧
        call.settle current item = { item with status := .invalidated }) ∨
      (item.id ≠ current.id ∧ (item.status = .pending → call.decision = .approved) ∧
        call.settle current item = item) := by
  by_cases hid : item.id = current.id
  · have heq : item = current := List.inj_on_of_nodup_map hdistinct hitem hcurrent hid
    subst heq
    exact .inl ⟨rfl, by simp [DecisionCall.settle]⟩
  · by_cases hclose : call.decision = .rejected ∧ item.status = .pending
    · refine .inr (.inl ⟨hid, hclose.1, hclose.2, ?_⟩)
      simp [DecisionCall.settle, hid, hclose]
    · refine .inr (.inr ⟨hid, fun hpending => ?_, ?_⟩)
      · cases hdecision : call.decision with
        | approved => rfl
        | rejected => exact absurd ⟨hdecision, hpending⟩ hclose
      · simp only [DecisionCall.settle, ne_eq, hid, not_false_eq_true, if_true, if_neg hclose]

/-! ## The invariant -/

theorem Sound.start {uuid : ℕ → Id} (huuid : Function.Injective uuid) (quoteId : Id)
    (chain : ApprovalChain) (maxLevels : Num) :
    Sound (buildApprovalSteps uuid quoteId chain maxLevels)
      { approvals := buildApprovalSteps uuid quoteId chain maxLevels } := by
  have hpending : ∀ item ∈ buildApprovalSteps uuid quoteId chain maxLevels,
      item.status = .pending := fun item hitem => (mem_buildApprovalSteps hitem).1
  refine ⟨rfl, ?_, ?_, ?_, .nil, ?_, .running ?_ fun item hitem => .inl (hpending item hitem)⟩
  · have hids : (buildApprovalSteps uuid quoteId chain maxLevels).map (·.id)
        = (List.range (chainLevels chain maxLevels).length).map uuid := by
      refine List.ext_getElem (by simp [buildApprovalSteps]) fun index h₁ h₂ => ?_
      simp [buildApprovalSteps]
    rw [hids]
    exact List.nodup_range.map huuid
  · intro item hitem happroved
    rw [hpending item hitem] at happroved
    cases happroved
  · exact fun entry hentry => absurd hentry List.not_mem_nil
  · exact fun entry hentry => absurd hentry List.not_mem_nil
  · exact fun entry hentry => absurd hentry List.not_mem_nil

/-- A pending step can only be found while the round is running. -/
theorem Sound.running_of_pending {built : List QuoteApproval} {round : Round}
    (h : Sound built round) {current : QuoteApproval} (hcurrent : current ∈ round.approvals)
    (hpending : current.status = .pending) :
    (∀ entry ∈ round.decided, entry.call.decision = .approved) ∧
      ∀ item ∈ round.approvals, item.status = .pending ∨ item.status = .approved := by
  cases h.phase with
  | running hdecided hstatus => exact ⟨hdecided, hstatus⟩
  | closed _ hstatus =>
      have := hstatus current hcurrent
      rw [hpending] at this
      simp at this

theorem Sound.play {built : List QuoteApproval} {round : Round} (h : Sound built round)
    (call : DecisionCall) : Sound built (round.play call) := by
  rcases play_cases round call with ⟨-, heq⟩ | ⟨current, hcurrent, hpending, hfirst, hrole, heq⟩
  · rw [heq]
    exact h
  obtain ⟨happroved, hstatus⟩ := h.running_of_pending hcurrent hpending
  have hsettle := fun {item} (hitem : item ∈ round.approvals) =>
    settle_status h.distinct hcurrent hitem call
  have hkeeps := fun item => settle_keeps call current item
  rw [heq]
  refine ⟨?steps, ?distinct, ?carried, ?settled, ?ordered, ?waiting, ?phase⟩
  case steps =>
    rw [List.map_map, ← h.steps]
    exact List.map_congr_left fun item _ => settle_identity call current item
  case distinct =>
    rw [List.map_map]
    have hids : (fun item : QuoteApproval => item.id) ∘ call.settle current
        = fun item : QuoteApproval => item.id := funext fun item => (hkeeps item).1
    rw [hids]
    exact h.distinct
  case carried =>
    intro settled hmem hok
    obtain ⟨item, hitem, rfl⟩ := List.mem_map.mp hmem
    rcases hsettle hitem with ⟨rfl, hset⟩ | ⟨-, -, -, hset⟩ | ⟨-, -, hset⟩
    · rw [hset] at hok ⊢
      cases hdecision : call.decision with
      | approved =>
          exact ⟨⟨item, call⟩, by simp, rfl, hdecision, rfl, hrole⟩
      | rejected =>
          simp [DecisionCall.mark, hdecision, ApprovalDecision.status] at hok
    · rw [hset] at hok
      cases hok
    · rw [hset] at hok ⊢
      obtain ⟨entry, hentry, hfacts⟩ := h.carried item hitem hok
      exact ⟨entry, List.mem_append_left _ hentry, hfacts⟩
  case settled =>
    intro entry hentry settled hmem hid
    obtain ⟨item, hitem, rfl⟩ := List.mem_map.mp hmem
    rw [(hkeeps item).1] at hid
    rcases List.mem_append.mp hentry with hold | hnew
    · -- an earlier entry's step is approved already, so it is not the step settled now
      have hdone := h.settled entry hold item hitem hid
      rw [happroved entry hold] at hdone ⊢
      rcases hsettle hitem with ⟨rfl, -⟩ | ⟨-, -, hwait, -⟩ | ⟨-, -, hset⟩
      · rw [hpending] at hdone
        cases hdone
      · rw [hwait] at hdone
        cases hdone
      · rw [hset]
        exact hdone
    · obtain rfl := List.mem_singleton.mp hnew
      rcases hsettle hitem with ⟨-, hset⟩ | ⟨hne, -⟩ | ⟨hne, -⟩
      · rw [hset]
        rfl
      · exact absurd hid hne
      · exact absurd hid hne
  case ordered =>
    refine List.pairwise_append.mpr ⟨h.ordered, List.pairwise_singleton _ _, ?_⟩
    intro entry hentry later hlater
    obtain rfl := List.mem_singleton.mp hlater
    exact h.waiting entry hentry current hcurrent hpending
  case waiting =>
    intro entry hentry settled hmem hwait
    obtain ⟨item, hitem, rfl⟩ := List.mem_map.mp hmem
    rw [(hkeeps item).2.1]
    have hstill : item.status = .pending := by
      rcases hsettle hitem with ⟨-, hset⟩ | ⟨-, -, hpend, -⟩ | ⟨-, -, hset⟩
      · rw [hset] at hwait
        cases hdecision : call.decision <;>
          simp [DecisionCall.mark, hdecision, ApprovalDecision.status] at hwait
      · exact hpend
      · rwa [hset] at hwait
    rcases List.mem_append.mp hentry with hold | hnew
    · exact h.waiting entry hold item hitem hstill
    · obtain rfl := List.mem_singleton.mp hnew
      exact hfirst item hitem hstill
  case phase =>
    cases hdecision : call.decision with
    | approved =>
        refine .running ?_ ?_
        · intro entry hentry
          rcases List.mem_append.mp hentry with hold | hnew
          · exact happroved entry hold
          · obtain rfl := List.mem_singleton.mp hnew
            exact hdecision
        · intro settled hmem
          obtain ⟨item, hitem, rfl⟩ := List.mem_map.mp hmem
          rcases hsettle hitem with ⟨-, hset⟩ | ⟨-, hreject, -⟩ | ⟨-, -, hset⟩
          · rw [hset]
            exact .inr (by simp [DecisionCall.mark, hdecision, ApprovalDecision.status])
          · rw [hdecision] at hreject
            cases hreject
          · rw [hset]
            exact hstatus item hitem
    | rejected =>
        refine .closed ⟨call.settle current current, List.mem_map_of_mem hcurrent, ?_⟩ ?_
        · simp [DecisionCall.settle, DecisionCall.mark, hdecision, ApprovalDecision.status]
        · intro settled hmem
          obtain ⟨item, hitem, rfl⟩ := List.mem_map.mp hmem
          rcases hsettle hitem with ⟨-, hset⟩ | ⟨-, -, -, hset⟩ | ⟨-, hpend, hset⟩
          · rw [hset]
            exact .inr (.inl (by simp [DecisionCall.mark, hdecision, ApprovalDecision.status]))
          · rw [hset]
            exact .inr (.inr rfl)
          · rw [hset]
            refine .inl ((hstatus item hitem).resolve_left fun hwait => ?_)
            rw [hdecision] at hpend
            cases hpend hwait

theorem Sound.playAll {built : List QuoteApproval} {round : Round} (h : Sound built round)
    (calls : List DecisionCall) : Sound built (round.playAll calls) := by
  induction calls generalizing round with
  | nil => exact h
  | cons call calls ih => exact ih (h.play call)

/-! ## What a sound round says -/

theorem Sound.mem_built {built : List QuoteApproval} {round : Round} (h : Sound built round)
    {step : QuoteApproval} (hstep : step ∈ built) : ∃ item ∈ round.approvals, item.id = step.id := by
  have hmem : identity step ∈ round.approvals.map identity := by
    rw [h.steps]
    exact List.mem_map_of_mem hstep
  obtain ⟨item, hitem, heq⟩ := List.mem_map.mp hmem
  exact ⟨item, hitem, congrArg Prod.fst heq⟩

theorem Sound.built_of_mem {built : List QuoteApproval} {round : Round} (h : Sound built round)
    {item : QuoteApproval} (hitem : item ∈ round.approvals) : ∃ step ∈ built, step.id = item.id := by
  have hmem : identity item ∈ built.map identity := by
    rw [← h.steps]
    exact List.mem_map_of_mem hitem
  obtain ⟨step, hstep, heq⟩ := List.mem_map.mp hmem
  exact ⟨step, hstep, congrArg Prod.fst heq⟩

theorem Sound.approvals_ne_nil {built : List QuoteApproval} {round : Round} (h : Sound built round)
    (hbuilt : built ≠ []) : round.approvals ≠ [] := by
  obtain ⟨step, hstep⟩ := List.exists_mem_of_ne_nil _ hbuilt
  obtain ⟨item, hitem, -⟩ := h.mem_built hstep
  exact List.ne_nil_of_mem hitem

/-- The predicate of the source counts a step out only when it is skipped or invalidated; in a round
that is never enough to pass. -/
theorem Sound.allRequiredApproved_iff {built : List QuoteApproval} {round : Round}
    (h : Sound built round) (hbuilt : built ≠ []) :
    allRequiredApproved round.approvals = true ↔
      ∀ item ∈ round.approvals, item.status = .approved := by
  have hne := h.approvals_ne_nil hbuilt
  cases h.phase with
  | running _ hstatus =>
      have hall : requiredApprovals round.approvals = round.approvals := by
        refine List.filter_eq_self.mpr fun item hitem => ?_
        rcases hstatus item hitem with hs | hs <;> rw [hs] <;> decide
      simp [allRequiredApproved, hall, hne]
  | closed hrejected _ =>
      obtain ⟨item, hitem, hs⟩ := hrejected
      have hreq : item ∈ requiredApprovals round.approvals :=
        mem_requiredApprovals.mpr ⟨hitem, by rw [hs]; decide, by rw [hs]; decide⟩
      have hfalse : allRequiredApproved round.approvals = false := by
        unfold allRequiredApproved
        rw [if_neg (by simpa using List.ne_nil_of_mem hreq), List.all_eq_false]
        exact ⟨item, hreq, by rw [hs]; decide⟩
      rw [hfalse]
      refine ⟨fun hno => (nomatch hno), fun hall => ?_⟩
      rw [hall item hitem] at hs
      cases hs

/-- After a rejection the round is closed. -/
theorem Sound.closed_of_rejected {built : List QuoteApproval} {round : Round}
    (h : Sound built round) {entry : Decided} (hentry : entry ∈ round.decided)
    (hrejected : entry.call.decision = .rejected) :
    (∃ item ∈ round.approvals, item.status = .rejected) ∧
      ∀ item ∈ round.approvals, item.status ≠ .pending := by
  cases h.phase with
  | running hdecided _ =>
      rw [hdecided entry hentry] at hrejected
      cases hrejected
  | closed hitem hstatus =>
      refine ⟨hitem, fun item hmem hpending => ?_⟩
      have := hstatus item hmem
      rw [hpending] at this
      simp at this

end Round

theorem buildApprovalSteps_ne_nil (uuid : ℕ → Id) (quoteId : Id) {chain : ApprovalChain}
    (hsteps : chain.steps ≠ []) (maxLevels : Num) :
    buildApprovalSteps uuid quoteId chain maxLevels ≠ [] := by
  have hlimit : 0 < ⌊min 3 (max 1 maxLevels)⌋.toNat := by
    have : (1 : ℤ) ≤ ⌊min 3 (max 1 maxLevels)⌋ := Int.le_floor.mpr (by simp)
    omega
  have hlength : 0 < chain.steps.length := List.length_pos_of_ne_nil hsteps
  refine List.ne_nil_of_length_pos ?_
  rw [buildApprovalSteps, List.length_mapIdx, chainLevels, List.length_take, length_sortBy]
  omega

/-- Approval round soundness, for any chain with a step, any level limit and any calls. -/
theorem approvalRound_sound (uuid : ℕ → Id) (huuid : Function.Injective uuid) (quoteId : Id)
    (chain : ApprovalChain) (hsteps : chain.steps ≠ []) (maxLevels : Num)
    (calls : List DecisionCall) :
    let built := buildApprovalSteps uuid quoteId chain maxLevels
    let round := Round.playAll { approvals := built } calls
    (allRequiredApproved round.approvals = true ↔
      ∀ step ∈ built, ∃ entry ∈ round.decided,
        entry.step.id = step.id ∧ entry.call.decision = .approved) ∧
    (round.decided.map (·.step.stepOrder)).Pairwise (· ≤ ·) ∧
    (∀ item ∈ round.approvals, item.status = .approved →
      ∃ entry ∈ round.decided, entry.step.id = item.id ∧
        item.actorId = some entry.call.actor.id ∧
        canActOnRole entry.call.actor item.roleKey = true) ∧
    (∀ entry ∈ round.decided, entry.call.decision = .rejected →
      (∀ item ∈ round.approvals, item.status ≠ .pending) ∧
      (∀ call next, applyApprovalDecision round.approvals call ≠ .ok next) ∧
      allRequiredApproved round.approvals = false) := by
  intro built round
  have hsound : Round.Sound built round :=
    (Round.Sound.start huuid quoteId chain maxLevels).playAll calls
  have hall := hsound.allRequiredApproved_iff
    (buildApprovalSteps_ne_nil uuid quoteId hsteps maxLevels)
  refine ⟨?_, List.pairwise_map.mpr hsound.ordered, ?_, ?_⟩
  · rw [hall]
    constructor
    · intro happroved step hstep
      obtain ⟨item, hitem, hid⟩ := hsound.mem_built hstep
      obtain ⟨entry, hentry, hentryId, hdecision, -⟩ :=
        hsound.carried item hitem (happroved item hitem)
      exact ⟨entry, hentry, hentryId.trans hid, hdecision⟩
    · intro hevery item hitem
      obtain ⟨step, hstep, hid⟩ := hsound.built_of_mem hitem
      obtain ⟨entry, hentry, hentryId, hdecision⟩ := hevery step hstep
      have := hsound.settled entry hentry item hitem (hid.symm.trans hentryId.symm)
      rwa [hdecision] at this
  · intro item hitem happroved
    obtain ⟨entry, hentry, hid, -, hactor, hrole⟩ := hsound.carried item hitem happroved
    exact ⟨entry, hentry, hid, hactor, hrole⟩
  · intro entry hentry hrejected
    obtain ⟨⟨item, hitem, hstatus⟩, hnone⟩ := hsound.closed_of_rejected hentry hrejected
    refine ⟨hnone, fun call next hok => ?_, ?_⟩
    · obtain ⟨current, hfind, hpending, -⟩ := applyApprovalDecision_eq_ok.mp hok
      exact hnone current (List.mem_of_find?_eq_some hfind) hpending
    · refine Bool.eq_false_iff.mpr fun htrue => ?_
      rw [hall.mp htrue item hitem] at hstatus
      cases hstatus

/-- A manager turning down the first step of a round. -/
def managerRejects : DecisionCall where
  approvalId := 0
  actor := { id := "mia", role := some "manager" }
  decision := .rejected
  reason := "margin"
  now := 5

/-- Two levels, the first rejected: nobody can decide the second any more. -/
theorem approvalRound_sound_rejected :
    let round := Round.playAll
      { approvals := buildApprovalSteps id 7 salesManagerFinanceChain 3 } [managerRejects]
    round.approvals.map (·.status) = [.rejected, .invalidated] ∧
      ∀ call next, applyApprovalDecision round.approvals call ≠ .ok next := by
  have hround := approvalRound_sound id Function.injective_id 7 salesManagerFinanceChain
    (by decide) 3 [managerRejects]
  have hrejected : ∃ entry ∈ (Round.playAll
      { approvals := buildApprovalSteps id 7 salesManagerFinanceChain 3 } [managerRejects]).decided,
      entry.call.decision = .rejected := by decide +kernel
  obtain ⟨entry, hentry, hdecision⟩ := hrejected
  exact ⟨by decide +kernel, (hround.2.2.2 entry hentry hdecision).2.1⟩

end DealFlow360
