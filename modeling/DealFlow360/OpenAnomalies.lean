import DealFlow360.Anomalies

/-!
# One open anomaly for each finding

A save stores a found anomaly only where none of its type and entity is open,
and finds each type once. So two open ones can only come from a disposition:
one that opens an anomaly again while a newer one, found since it was closed,
is open.

`Shadows` ties a program of the service to the same program beside the list:
what it does to the store is the same, and what it does to the list is said
separately. For one request there is an exact condition (`openOnce_serve_iff`):
it leaves two open anomalies of one type and entity exactly if it is a
disposition that opens one beside another. The rule for exact conditions makes
it `open_once_iff`, for every run of a service that has found nothing yet.
-/

namespace DealFlow360

open Program

/-! ## The programs beside the world -/

/-- The watched program does to the world what the program does, and answers the same. -/
def Shadows {α : Type} (watched : WatchedService α) (program : Service α) : Prop :=
  ∀ s, (∀ a s', watched s = .ok a s' → program s.world = .ok a s'.world) ∧
    ∀ e s', watched s = .error e s' → program s.world = .error e s'.world

section Shadowing

variable {α β : Type}

theorem shadows_watch (program : Service α) : Shadows (watch program) program := by
  intro s
  unfold watch
  cases program s.world with
  | ok a w =>
      dsimp only
      constructor
      · intro a' s' h
        cases h
        rfl
      · intro e s' h
        cases h
  | error e w =>
      dsimp only
      constructor
      · intro a s' h
        cases h
      · intro e' s' h
        cases h
        rfl

theorem shadows_pure (a : α) : Shadows (pure a) (pure a) := by
  intro s
  constructor
  · intro a' s' h
    obtain ⟨rfl, rfl⟩ := pure_eq_ok.mp h
    rfl
  · intro e s' h
    exact absurd h pure_eq_error.mp

theorem Shadows.bind {watched : WatchedService α} {program : Service α} {watched' : α → WatchedService β}
    {program' : α → Service β} (h : Shadows watched program) (h' : ∀ a, Shadows (watched' a) (program' a)) :
    Shadows (watched >>= watched') (program >>= program') := by
  intro s
  obtain ⟨hok, herror⟩ := h s
  constructor
  · intro b s'' hrun
    obtain ⟨a, s', hfirst, hrest⟩ := bind_eq_ok.mp hrun
    exact bind_eq_ok.mpr ⟨a, s'.world, hok a s' hfirst, (h' a s').1 b s'' hrest⟩
  · intro e s'' hrun
    rcases bind_eq_error.mp hrun with hfirst | ⟨a, s', hfirst, hrest⟩
    · exact bind_eq_error.mpr (.inl (herror e s'' hfirst))
    · exact bind_eq_error.mpr (.inr ⟨a, s'.world, hok a s' hfirst, (h' a s').2 e s'' hrest⟩)

/-- What only the list sees comes after the program. -/
theorem Shadows.then_write {watched : WatchedService α} {program : Service α} {rest : α → WatchedService α}
    (h : Shadows watched program) (hrest : ∀ a s, ∃ s', rest a s = .ok a s' ∧ s'.world = s.world) :
    Shadows (watched >>= rest) program := by
  intro s
  obtain ⟨hok, herror⟩ := h s
  constructor
  · intro a s'' hrun
    obtain ⟨a', s', hfirst, hlast⟩ := bind_eq_ok.mp hrun
    obtain ⟨s₂, hends, hworld⟩ := hrest a' s'
    rw [hends] at hlast
    cases hlast
    rw [hworld]
    exact hok _ s' hfirst
  · intro e s'' hrun
    rcases bind_eq_error.mp hrun with hfirst | ⟨a, s', hfirst, hlast⟩
    · exact herror e s'' hfirst
    · obtain ⟨s₂, hends, -⟩ := hrest a s'
      rw [hends] at hlast
      cases hlast

theorem world_foldl_persistAnomaly (existing : List DealflowAnomaly) (found : List FoundAnomaly) (s : WatchedWorld) :
    (found.foldl (persistAnomaly existing) s).world = s.world := by
  induction found generalizing s with
  | nil => rfl
  | cons item found ih =>
      rw [List.foldl_cons, ih]
      unfold persistAnomaly
      split <;> rfl

theorem shadows_saveWatched (env : Env) (aggregate : QuoteAggregate) :
    Shadows (saveWatched env aggregate) (saveAssessed env aggregate) := by
  refine (shadows_watch _).bind fun refreshed => (shadows_watch _).then_write fun saved s => ?_
  refine ⟨_, rfl, ?_⟩
  exact world_foldl_persistAnomaly _ _ s

theorem shadows_mutation (env : Env) (mutation : Mutation) : Shadows (mutation.watched env) (mutation.run env) := by
  refine (shadows_watch mutation.load).bind fun loaded => (shadows_watch (mutation.edit loaded)).bind fun edited => ?_
  cases edited with
  | none => exact shadows_watch (mutation.idle loaded)
  | some aggregate => exact (shadows_saveWatched env aggregate).bind fun saved => shadows_watch (mutation.tail saved)

theorem shadows_operation (env : Env) (operation : Operation) :
    Shadows (operation.watched env) (operation.program env) := by
  have hdone {program : Service PUnit} : Shadows (watch program) program := shadows_watch program
  cases operation with
  | edit op => exact (shadows_mutation env (op.mutation env)).bind fun _ => shadows_pure _
  | createQuote customerId ownerId lines actor =>
      refine Shadows.bind ?_ fun _ => shadows_pure _
      exact (shadows_watch _).bind fun draft => (shadows_saveWatched env draft).bind fun saved => shadows_watch _
  | deleteQuote quoteId actor version =>
      exact (shadows_watch (deleteQuote quoteId actor version)).then_write fun _ s => ⟨_, rfl, rfl⟩
  | assess quoteId => exact hdone
  | catalog op => exact hdone
  | view op => exact hdone

/-- Beside the list, a request is the same. -/
theorem world_serve (options : Options) (s : WatchedWorld) (request : Request) :
    (s.serve options (.operation request)).world = serve options s.world request := by
  obtain ⟨hok, herror⟩ := shadows_operation (request.env options) request.operation s
  unfold WatchedWorld.serve WatchedRequest.program serve Request.program
  dsimp only
  cases hrun : request.operation.watched (request.env options) s with
  | ok a s' => rw [after_of_ok hrun, after_of_ok (hok a s' hrun)]
  | error e s' => rw [after_of_error hrun, after_of_error (herror e s' hrun)]

end Shadowing

/-! ## Detection -/

def anomalyTypes : List String :=
  ["unusual_discount", "large_deal", "price_override", "repeated_approval", "negotiation_spike", "stale_deal",
    "inventory_shortfall"]

/-- Each type is found once at most, and of the quote. -/
theorem detected (aggregate : QuoteAggregate) (assessment : Option QuoteAssessment) (config : GovernanceConfig)
    (now : Timestamp) :
    ((detectQuoteAnomalies aggregate assessment config now).map (·.type)).Sublist anomalyTypes := by
  have hkept (c : Prop) [Decidable c] (item : FoundAnomaly) (rest : List FoundAnomaly) (types : List String)
      (h : (rest.map (·.type)).Sublist types) :
      (((if c then [item] else []) ++ rest).map (·.type)).Sublist (item.type :: types) := by
    split
    · exact h.cons_cons item.type
    · exact h.cons item.type
  unfold detectQuoteAnomalies anomalyTypes
  dsimp only
  rw [List.append_assoc, List.append_assoc, List.append_assoc, List.append_assoc, List.append_assoc]
  refine hkept _ _ _ _ (hkept _ _ _ _ (hkept _ _ _ _ (hkept _ _ _ _ (hkept _ _ _ _ (hkept _ _ _ _ ?_)))))
  split
  · exact List.Sublist.refl _
  · exact List.nil_sublist _

theorem countP_detected_le (aggregate : QuoteAggregate) (assessment : Option QuoteAssessment)
    (config : GovernanceConfig) (now : Timestamp) (type : String) (p : FoundAnomaly → Bool)
    (hp : ∀ item, p item = true → item.type = type) :
    (detectQuoteAnomalies aggregate assessment config now).countP p ≤ 1 := by
  have hnodup : ((detectQuoteAnomalies aggregate assessment config now).map (·.type)).Nodup :=
    (detected aggregate assessment config now).nodup (by decide)
  have hcount := List.nodup_iff_count_le_one.mp hnodup type
  rw [List.count_eq_countP, List.countP_map] at hcount
  refine (List.countP_mono_left fun item _ hitem => ?_).trans hcount
  exact beq_iff_eq.mpr (hp item hitem)

/-! ## One open at most -/

/-- How many anomalies of a type and entity are open. -/
def WatchedWorld.opened (s : WatchedWorld) (type : String) (entityId : Id) : ℕ :=
  s.anomalies.countP (isOpenOf type entityId)

def WatchedWorld.OpenOnce (s : WatchedWorld) : Prop := ∀ type entityId, s.opened type entityId ≤ 1

/-- A save adds at most what it found of a type and entity, unless one was open on the list it read. -/
theorem opened_persistAnomalies (existing : List DealflowAnomaly) (found : List FoundAnomaly) (s : WatchedWorld)
    (type : String) (entityId : Id) :
    (found.foldl (persistAnomaly existing) s).opened type entityId ≤
      s.opened type entityId + if existing.any (isOpenOf type entityId) then 0
        else found.countP fun item => item.type = type && item.entityId = entityId := by
  induction found generalizing s with
  | nil => exact Nat.le_add_right _ _
  | cons item found ih =>
      rw [List.foldl_cons]
      refine (ih _).trans ?_
      rw [List.countP_cons]
      unfold persistAnomaly
      by_cases hexisting : existing.any (isOpenOf item.type item.entityId) = true
      · rw [if_pos hexisting]
        split
        · exact le_rfl
        · exact Nat.add_le_add_left (Nat.le_add_right _ _) _
      · rw [if_neg hexisting]
        have hupsert := @Table.countP_upsert_le _ _ _ DealflowAnomaly.id (isOpenOf type entityId)
          { item with id := s.nextAnomaly, status := .open, updatedAt := item.detectedAt } s.anomalies
        change (Table.upsert DealflowAnomaly.id _ s.anomalies).countP (isOpenOf type entityId) + _ ≤
          s.anomalies.countP (isOpenOf type entityId) + _
        by_cases hsame : (item.type = type && item.entityId = entityId) = true
        · simp only [Bool.and_eq_true, decide_eq_true_eq] at hsame
          obtain ⟨rfl, rfl⟩ := hsame
          rw [if_neg hexisting, if_neg hexisting, if_pos (by simp)]
          split at hupsert <;> omega
        · have hother : isOpenOf type entityId { item with
              id := s.nextAnomaly, status := .open, updatedAt := item.detectedAt } = false := by
            unfold isOpenOf
            rw [Bool.and_eq_false_iff]
            exact .inl (Bool.eq_false_iff.mpr hsame)
          rw [hother, if_neg Bool.false_ne_true] at hupsert
          rw [if_neg hsame, Nat.add_zero]
          omega

/-- A request may only lead from lists with one open at most to others. -/
abbrev StaysOnce (s s' : WatchedWorld) : Prop := s.OpenOnce → s'.OpenOnce

instance : Std.Refl StaysOnce := ⟨fun _ h => h⟩

instance : IsTrans WatchedWorld StaysOnce := ⟨fun _ _ _ h h' hs => h' (h hs)⟩

instance keeps_watch {α : Type} (program : Service α) : Keeps StaysOnce (watch program) where
  keeps s hs := by
    unfold after watch
    cases program s.world with
    | ok a w => exact hs
    | error e w => exact hs

instance keeps_persistAnomalies (env : Env) (aggregate : QuoteAggregate) (assessment : Option QuoteAssessment) :
    Keeps StaysOnce (persistAnomalies env aggregate assessment) where
  keeps s hs type entityId := by
    change (List.foldl (persistAnomaly s.anomalies) s _).opened type entityId ≤ 1
    refine (opened_persistAnomalies _ _ _ type entityId).trans ?_
    split
    · exact hs type entityId
    · rename_i hnone
      have hzero : s.opened type entityId = 0 := by
        unfold WatchedWorld.opened
        rw [List.countP_eq_zero]
        intro anomaly hmem hopen
        exact hnone (List.any_eq_true.mpr ⟨anomaly, hmem, hopen⟩)
      rw [hzero, Nat.zero_add]
      refine countP_detected_le _ _ _ _ type _ fun item hitem => ?_
      rw [Bool.and_eq_true, decide_eq_true_eq] at hitem
      exact hitem.1

instance keeps_saveWatched (env : Env) (aggregate : QuoteAggregate) : Keeps StaysOnce (saveWatched env aggregate) := by
  unfold saveWatched
  infer_instance

instance keeps_mutationWatched (env : Env) (mutation : Mutation) : Keeps StaysOnce (mutation.watched env) := by
  unfold Mutation.watched
  refine Keeps.bind_of inferInstance fun loaded _ _ _ => Keeps.bind_of inferInstance fun edited _ _ _ => ?_
  cases edited with
  | none => exact keeps_watch _
  | some aggregate => exact Keeps.bind

theorem keeps_deleteAnomalies (quoteId : Id) : Keeps StaysOnce (write fun s : WatchedWorld =>
    { s with anomalies := s.anomalies.filter fun anomaly => anomaly.quoteId ≠ some quoteId } :
      WatchedService PUnit) :=
  .write fun _ hs type entityId => (List.filter_sublist.countP_le).trans (hs type entityId)

theorem keeps_operationWatched (env : Env) (operation : Operation) : Keeps StaysOnce (operation.watched env) := by
  cases operation with
  | edit op => exact Keeps.bind
  | createQuote customerId ownerId lines actor =>
      unfold Operation.watched createQuoteWatched
      infer_instance
  | deleteQuote quoteId actor version =>
      exact Keeps.bind_of (keeps_watch _) fun _ _ _ _ => keeps_deleteAnomalies quoteId
  | assess quoteId => exact keeps_watch _
  | catalog op => exact keeps_watch _
  | view op => exact keeps_watch _

/-! ## Dispositions -/

/-- A disposition opens an anomaly again while another of its type and entity is open. -/
def Reopens (s : WatchedWorld) : WatchedRequest → Prop
  | .operation _ => False
  | .disposeAnomaly id input _ _ =>
      input.status = .open ∧ ∃ found, Table.lookup (fun anomaly : DealflowAnomaly => anomaly.id) id s.anomalies =
          some found ∧ found.status ≠ .open ∧ 0 < s.opened found.type found.entityId

/-- What a disposition of a stored anomaly does to the list. -/
theorem serve_disposeAnomaly (options : Options) (s : WatchedWorld) (id : Id) (input : AnomalyDisposition)
    (actorId : String) (now : Timestamp) :
    s.serve options (.disposeAnomaly id input actorId now) =
      match Table.lookup (fun anomaly : DealflowAnomaly => anomaly.id) id s.anomalies with
      | none => s
      | some found => upsertAnomaly (found.disposed input actorId now) s := by
  change after (DealFlow360.disposeAnomaly id input actorId now) s = _
  unfold disposeAnomaly after
  cases hfound : Table.lookup (fun anomaly : DealflowAnomaly => anomaly.id) id s.anomalies with
  | none =>
      rw [read_bind, hfound]
      rfl
  | some found =>
      rw [read_bind, hfound]
      rfl

/-- Exactly a disposition that opens an anomaly beside another leaves two of a type and entity open. -/
theorem openOnce_serve_iff (options : Options) (s : WatchedWorld) (request : WatchedRequest) (hs : s.OpenOnce) :
    (s.serve options request).OpenOnce ↔ ¬Reopens s request := by
  cases request with
  | operation request =>
      refine iff_of_true ((keeps_operationWatched (request.env options) request.operation).keeps s hs) ?_
      exact id
  | disposeAnomaly id input actorId now =>
      rw [serve_disposeAnomaly]
      unfold Reopens
      cases hfound : Table.lookup (fun anomaly : DealflowAnomaly => anomaly.id) id s.anomalies with
      | none =>
          refine iff_of_true hs ?_
          rintro ⟨-, found, hother, -⟩
          cases hfound.symm.trans hother
      | some found =>
          have hid := Table.key_of_lookup hfound
          have hcount (type : String) (entityId : Id) :
              (upsertAnomaly (found.disposed input actorId now) s).opened type entityId +
                  (if isOpenOf type entityId found then 1 else 0) =
                s.opened type entityId + if isOpenOf type entityId (found.disposed input actorId now) then 1 else 0 :=
            Table.countP_upsert (isOpenOf type entityId) (x := found.disposed input actorId now) (hid ▸ hfound)
          have hdisposed (type : String) (entityId : Id) :
              isOpenOf type entityId (found.disposed input actorId now) = true ↔
                found.type = type ∧ found.entityId = entityId ∧ input.status = .open := by
            simp [isOpenOf, DealflowAnomaly.disposed, and_assoc]
          by_cases hopens : input.status = .open
          · by_cases hwas : found.status = .open
            · refine iff_of_true (fun type entityId => ?_) ?_
              · have hsame : isOpenOf type entityId found =
                    isOpenOf type entityId (found.disposed input actorId now) := by
                  rw [Bool.eq_iff_iff, hdisposed]
                  simp only [isOpenOf, Bool.and_eq_true, decide_eq_true_eq, and_assoc, hwas, hopens]
                have hcount := hcount type entityId
                rw [hsame, Nat.add_right_cancel_iff] at hcount
                rw [hcount]
                exact hs type entityId
              · rintro ⟨-, other, hother, hclosed, -⟩
                obtain rfl := Option.some.inj (hfound.symm.trans hother)
                exact hclosed hwas
            · have hclosed (type : String) (entityId : Id) : isOpenOf type entityId found = false := by
                simp only [isOpenOf, hwas, decide_false, Bool.and_false]
              constructor
              · rintro honce ⟨-, other, hother, -, hopened⟩
                obtain rfl := Option.some.inj (hfound.symm.trans hother)
                have hcount := hcount found.type found.entityId
                rw [if_pos ((hdisposed _ _).mpr ⟨rfl, rfl, hopens⟩), hclosed, if_neg Bool.false_ne_true] at hcount
                have htwo := honce found.type found.entityId
                dsimp only at htwo
                omega
              · intro hreopens type entityId
                have hcount := hcount type entityId
                rw [hclosed, if_neg Bool.false_ne_true, Nat.add_zero] at hcount
                dsimp only
                rw [hcount]
                by_cases hsame : isOpenOf type entityId (found.disposed input actorId now) = true
                · rw [if_pos hsame]
                  obtain ⟨rfl, rfl, -⟩ := (hdisposed type entityId).mp hsame
                  have hzero : ¬0 < s.opened found.type found.entityId :=
                    fun hpos => hreopens ⟨hopens, found, hfound, hwas, hpos⟩
                  omega
                · rw [if_neg hsame]
                  exact hs type entityId
          · refine iff_of_true (fun type entityId => ?_) fun h => hopens h.1
            have hcount := hcount type entityId
            have honce := hs type entityId
            rw [if_neg fun h => hopens ((hdisposed type entityId).mp h).2.2] at hcount
            dsimp only
            omega

/-! ## Runs -/

/-- In a run of a service that has found nothing yet, one anomaly of a type and entity at most is open at every point
exactly if no disposition opens one beside another. -/
theorem open_once_iff (options : Options) (w : World) (requests : List WatchedRequest) :
    (∀ first rest, requests = first ++ rest →
        (Machine.run (WatchedWorld.serve options) { world := w } first).OpenOnce) ↔
      Machine.Meets (WatchedWorld.serve options) (fun s request => ¬Reopens s request) { world := w } requests :=
  Machine.always_iff_of_exact (J := WatchedWorld.OpenOnce) (openOnce_serve_iff options)
    fun _ _ => Nat.zero_le 1

/-- Twenty gateways are a large deal. The finding is acknowledged, the next save finds it again, and the first one is
opened again. -/
def reopenedFinding : List WatchedRequest :=
  [.operation
      { operation := .createQuote 1 none [{ productId := 11, quantity := 20, discountPercent := 0 }] administrator },
    .disposeAnomaly 0 { status := .acknowledged } "ada" 1,
    .operation { operation := .edit (.agreeToFinal 100 1) },
    .disposeAnomaly 0 { status := .«open» } "ada" 2]

/-- Two large-deal anomalies of one quote are open. -/
theorem finding_open_twice :
    ¬∀ (options : Options) (w : World) (requests : List WatchedRequest),
      (Machine.run (WatchedWorld.serve options) { world := w } requests).OpenOnce := by
  intro h
  have htwo : (Machine.run (WatchedWorld.serve plainOptions) { world := startWorld } reopenedFinding).opened
      "large_deal" 100 = 2 := by decide +kernel
  have hone := h plainOptions startWorld reopenedFinding "large_deal" 100
  rw [htwo] at hone
  exact absurd hone (by decide)

end DealFlow360
