import DealFlow360.Defaults
import DealFlow360.GovernanceConfig
import DealFlow360.Lib.Program
import DealFlow360.Loyalty

/-!
# More roles

An actor is matched with one authority: the sales role of the largest discount,
or what an admin falls back to. Another role never takes a sales role away, so
the discount of the matched one does not fall; the price override of the
matched one can, and so can both where the first sales role ends the fallback.

Matching takes the first of a ranking, so an actor's authority is the best of
the rows of its roles, and another role adds rows (`salesRows_of_sublist`). The
discount of the best row cannot fall; what can fall is a limit that does not go
with the discount, or the fallback of an actor who had no sales role before.

- `limit_withRole_iff`: what a limit has to be of the next authority;
- `overrides_kept_iff` and `fallback_kept_iff`: the laws of a table of
  authorities that keep price overrides, with and without a fallback;
- `more_roles_iff`: for every accepted list, a further role lowers neither the
  ceiling nor the override exactly under these laws.
-/

namespace DealFlow360

/-! ## The matched authority -/

/-- The authorities of the sales roles an actor has. -/
def salesRows (authorities : List RoleAuthority) (actor : Actor) : List RoleAuthority :=
  authorities.filter fun item => item.roleKey ∈ actorDiscountRoles (some actor) && item.roleKey ∈ discountRoleKeys

/-- The first of them with the largest discount. -/
def salesAuthority (authorities : List RoleAuthority) (actor : Actor) : Option RoleAuthority :=
  (salesRows authorities actor).argmax (·.maxDiscountPercent)

/-- What an admin without a sales role has. -/
def adminFallback (authorities : List RoleAuthority) : RoleAuthority :=
  (authorities.find? fun item => item.roleKey = "finance").getD adminAuthority

def Actor.isAdmin (actor : Actor) : Prop :=
  "admin" ∈ actorDiscountRoles (some actor)

instance (actor : Actor) : Decidable actor.isAdmin :=
  inferInstanceAs (Decidable (_ ∈ _))

theorem matchDiscountAuthority_eq {authorities : List RoleAuthority} (h : authorities ≠ []) (actor : Actor) :
    matchDiscountAuthority authorities (some actor) =
      match salesAuthority authorities actor with
      | some authority => some authority
      | none => if actor.isAdmin then some (adminFallback authorities) else none := by
  have hempty : (authorities.isEmpty || (some actor).isNone) = false := by
    rw [List.isEmpty_eq_false_iff.mpr h]
    rfl
  have hcompare : ∀ left right : RoleAuthority,
      right.maxDiscountPercent - left.maxDiscountPercent ≤ 0 ↔
        right.maxDiscountPercent ≤ left.maxDiscountPercent := fun left right => sub_nonpos
  unfold matchDiscountAuthority
  dsimp only
  rw [hempty, if_neg Bool.false_ne_true, sortBy_eq_ranked hcompare, Top.head?_ranked]
  rfl

/-- The price override the matched authority allows. -/
def overrideLimit (authorities : List RoleAuthority) (actor : Actor) : Num :=
  ((matchDiscountAuthority authorities (some actor)).map (·.maxPriceOverridePercent)).getD 0

/-- How far an applied price is off the rule price, in percent of it. -/
def overridePercent (rulePrice appliedPrice : Num) : Num :=
  if rulePrice = 0 then 0 else |appliedPrice - rulePrice| / rulePrice * 100

/-- It is the limit the price check asks. -/
theorem assertPriceOverride_eq_ok {rulePrice appliedPrice : Num} {authorities : List RoleAuthority} {actor : Actor} :
    assertPriceOverrideWithinAuthority rulePrice appliedPrice authorities (some actor) = .ok () ↔
      overridePercent rulePrice appliedPrice ≤ overrideLimit authorities actor + authorityTolerance := by
  rw [← sub_le_iff_le_add', ← not_lt]
  unfold assertPriceOverrideWithinAuthority
  dsimp only
  constructor
  · intro h hlt
    cases (if_pos hlt).symm.trans h
  · intro h
    exact if_neg h

/-! ## Another role -/

/-- The actor with one more role. -/
def Actor.withRole (actor : Actor) (role : String) : Actor :=
  { actor with roles := actor.roles ++ [role] }

theorem actorDiscountRoles_withRole (actor : Actor) (role : String) :
    actorDiscountRoles (some (actor.withRole role)) =
      actorDiscountRoles (some actor) ++ [role].filter (· ≠ "") := by
  unfold actorDiscountRoles Actor.withRole
  dsimp only
  rw [← List.append_assoc, List.filter_append]

theorem roles_subset_withRole (actor : Actor) (role : String) {key : String}
    (h : key ∈ actorDiscountRoles (some actor)) : key ∈ actorDiscountRoles (some (actor.withRole role)) := by
  rw [actorDiscountRoles_withRole]
  exact List.mem_append_left _ h

theorem salesRows_subset (authorities : List RoleAuthority) (actor : Actor) (role : String) :
    salesRows authorities actor ⊆ salesRows authorities (actor.withRole role) := by
  intro row hrow
  simp only [salesRows, List.mem_filter, Bool.and_eq_true, decide_eq_true_eq] at hrow ⊢
  exact ⟨hrow.1, roles_subset_withRole actor role hrow.2.1, hrow.2.2⟩

/-- An actor with sales rows keeps some, of no smaller discount. -/
theorem salesAuthority_withRole {authorities : List RoleAuthority} {actor : Actor} {old : RoleAuthority}
    (h : salesAuthority authorities actor = some old) (role : String) :
    ∃ new, salesAuthority authorities (actor.withRole role) = some new ∧
      old.maxDiscountPercent ≤ new.maxDiscountPercent := by
  have hmem := salesRows_subset authorities actor role (List.argmax_mem h)
  cases hnew : salesAuthority authorities (actor.withRole role) with
  | none =>
      unfold salesAuthority at hnew
      rw [List.argmax_eq_none] at hnew
      rw [hnew] at hmem
      cases hmem
  | some new => exact ⟨new, rfl, List.le_of_mem_argmax hmem hnew⟩

/-! ## What an accepted list has -/

/-- Limits no percentage of which is negative. -/
structure RoleAuthority.Nonneg (item : RoleAuthority) : Prop where
  discount : 0 ≤ item.maxDiscountPercent
  priceOverride : 0 ≤ item.maxPriceOverridePercent

theorem nonneg_of_not_notPercent {x : Num} (h : notPercent x = false) : 0 ≤ x := by
  unfold notPercent at h
  rw [Bool.or_eq_false_iff, decide_eq_false_iff_not, not_lt] at h
  exact h.1

theorem normalizeRoleAuthority_nonneg {seen : List String} {item stored : RoleAuthority} {index : ℕ}
    (h : normalizeRoleAuthority seen item index = .ok stored) : item.Nonneg := by
  unfold normalizeRoleAuthority at h
  obtain ⟨_, hchecks, -⟩ := Program.except_bind_eq_ok.mp h
  rw [firstFailure_eq_ok] at hchecks
  simp only [List.forall_mem_cons] at hchecks
  exact ⟨nonneg_of_not_notPercent hchecks.2.2.1, nonneg_of_not_notPercent hchecks.2.2.2.2.1⟩

theorem nonneg_of_validated {authorities stored : List RoleAuthority}
    (h : validateRoleAuthorities authorities = .ok stored) : ∀ row ∈ authorities, row.Nonneg := by
  intro row hrow
  rw [← List.zipIdx_map_fst 0 authorities] at hrow
  obtain ⟨entry, hentry, rfl⟩ := List.mem_map.mp hrow
  obtain ⟨_, _, hstep⟩ := Program.step_of_except_foldlM h entry hentry
  obtain ⟨_, hnext, -⟩ := Program.except_bind_eq_ok.mp hstep
  exact normalizeRoleAuthority_nonneg hnext

theorem roleKeys_nodup {entries : List (RoleAuthority × ℕ)} {done stored : List RoleAuthority}
    (hdone : (done.map RoleAuthority.roleKey).Nodup)
    (h : entries.foldlM (fun (done : List RoleAuthority) (entry : RoleAuthority × ℕ) => (do
      let next ← normalizeRoleAuthority (done.map RoleAuthority.roleKey) entry.1 entry.2
      return done ++ [next] : Except DomainError (List RoleAuthority))) done = .ok stored) :
    (done.map RoleAuthority.roleKey ++ entries.map fun entry => trim entry.1.roleKey).Nodup := by
  induction entries generalizing done with
  | nil =>
      rw [List.map_nil, List.append_nil]
      exact hdone
  | cons entry entries ih =>
      rw [List.foldlM_cons] at h
      obtain ⟨_, hstep, hrest⟩ := Program.except_bind_eq_ok.mp h
      obtain ⟨next, hnext, hstep⟩ := Program.except_bind_eq_ok.mp hstep
      obtain rfl := Except.ok.inj hstep
      unfold normalizeRoleAuthority at hnext
      obtain ⟨_, hchecks, hnext⟩ := Program.except_bind_eq_ok.mp hnext
      obtain rfl := Except.ok.inj hnext
      rw [firstFailure_eq_ok] at hchecks
      simp only [List.forall_mem_cons, decide_eq_false_iff_not] at hchecks
      have hkeys : ((done ++ [{ entry.1 with roleKey := trim entry.1.roleKey }]).map RoleAuthority.roleKey).Nodup := by
        rw [List.map_append, List.map_singleton]
        refine List.nodup_append.mpr ⟨hdone, List.nodup_singleton _, fun key hkey other hother heq => ?_⟩
        obtain rfl : other = trim entry.1.roleKey := List.mem_singleton.mp hother
        exact hchecks.2.1 (heq ▸ hkey)
      have hall := ih hkeys hrest
      rwa [List.map_append, List.map_singleton, List.append_assoc] at hall

/-- No two authorities are of one role. -/
theorem distinct_of_validated {authorities stored : List RoleAuthority}
    (h : validateRoleAuthorities authorities = .ok stored) : (authorities.map RoleAuthority.roleKey).Nodup := by
  unfold validateRoleAuthorities at h
  have htrimmed := @roleKeys_nodup _ [] _ List.nodup_nil h
  rw [List.map_nil, List.nil_append] at htrimmed
  refine List.Nodup.of_map trim ?_
  rw [← List.zipIdx_map_fst 0 authorities, List.map_map, List.map_map]
  exact htrimmed

/-! ## What may fall -/

section Granted

variable {authorities stored : List RoleAuthority}

theorem adminFallback_nonneg (h : ∀ row ∈ authorities, row.Nonneg) : (adminFallback authorities).Nonneg := by
  unfold adminFallback
  cases hfinance : authorities.find? fun item => item.roleKey = "finance" with
  | none => exact ⟨by decide, by decide⟩
  | some row => exact h row (List.mem_of_find?_eq_some hfinance)

theorem mem_of_salesAuthority {actor : Actor} {row : RoleAuthority}
    (h : salesAuthority authorities actor = some row) : row ∈ authorities :=
  List.mem_of_mem_filter (List.argmax_mem h)

theorem limit_nonneg {limit : RoleAuthority → Num} (hlimit : ∀ row : RoleAuthority, row.Nonneg → 0 ≤ limit row)
    (h : ∀ row ∈ authorities, row.Nonneg) (actor : Actor) :
    0 ≤ ((matchDiscountAuthority authorities (some actor)).map limit).getD 0 := by
  rcases eq_or_ne authorities [] with rfl | hne
  · exact le_rfl
  · rw [matchDiscountAuthority_eq hne]
    cases hsales : salesAuthority authorities actor with
    | some row => exact hlimit row (h row (mem_of_salesAuthority hsales))
    | none =>
        by_cases hadmin : actor.isAdmin
        · simp only [if_pos hadmin]
          exact hlimit _ (adminFallback_nonneg h)
        · simp only [if_neg hadmin]
          exact le_rfl

/-- What a limit has to be of the next authority for another role not to lower it. -/
theorem limit_withRole_iff (h : ∀ row ∈ authorities, row.Nonneg) {limit : RoleAuthority → Num}
    (hlimit : ∀ row : RoleAuthority, row.Nonneg → 0 ≤ limit row) (actor : Actor) (role : String)
    {f : Num → Num} (hf : Monotone f) :
    f (((matchDiscountAuthority authorities (some actor)).map limit).getD 0) ≤
        f (((matchDiscountAuthority authorities (some (actor.withRole role))).map limit).getD 0) ↔
      ∀ new ∈ salesAuthority authorities (actor.withRole role),
        (∀ old ∈ salesAuthority authorities actor, f (limit old) ≤ f (limit new)) ∧
          (salesAuthority authorities actor = none → actor.isAdmin →
            f (limit (adminFallback authorities)) ≤ f (limit new)) := by
  rcases eq_or_ne authorities [] with rfl | hne
  · refine iff_of_true le_rfl fun new hnew => ?_
    cases hnew
  cases hold : salesAuthority authorities actor with
  | some old =>
      obtain ⟨new, hnew, -⟩ := salesAuthority_withRole hold role
      rw [matchDiscountAuthority_eq hne, matchDiscountAuthority_eq hne, hold, hnew]
      simp
  | none =>
      by_cases hadmin : actor.isAdmin
      · cases hnew : salesAuthority authorities (actor.withRole role) with
        | none =>
            have hadmin' : (actor.withRole role).isAdmin := roles_subset_withRole actor role hadmin
            rw [matchDiscountAuthority_eq hne, matchDiscountAuthority_eq hne, hold, hnew]
            simp [hadmin, hadmin']
        | some new =>
            rw [matchDiscountAuthority_eq hne, matchDiscountAuthority_eq hne, hold, hnew]
            simp [hadmin]
      · have hnothing : ((matchDiscountAuthority authorities (some actor)).map limit).getD 0 = 0 := by
          rw [matchDiscountAuthority_eq hne, hold]
          simp [hadmin]
        rw [hnothing]
        refine iff_of_true (hf (limit_nonneg hlimit h _)) fun new _ => ⟨fun old hold => ?_, fun _ hadmin' => ?_⟩
        · cases hold
        · exact absurd hadmin' hadmin

end Granted

/-! ## Laws of a table -/

/-- The authorities that a sales role can have. -/
def salesTable (authorities : List RoleAuthority) : List RoleAuthority :=
  authorities.filter fun item => item.roleKey ∈ discountRoleKeys

/-- Of two sales authorities, the one of the larger discount (the earlier one where they are equal) allows no smaller
price override. -/
def OverridesFollow (authorities : List RoleAuthority) : Prop :=
  (salesTable authorities).Pairwise fun first second =>
    (second.maxDiscountPercent ≤ first.maxDiscountPercent →
        second.maxPriceOverridePercent ≤ first.maxPriceOverridePercent) ∧
      (first.maxDiscountPercent < second.maxDiscountPercent →
        first.maxPriceOverridePercent ≤ second.maxPriceOverridePercent)

/-- No sales authority allows a smaller price override than an admin falls back to. -/
def FallbackCovered (authorities : List RoleAuthority) : Prop :=
  ∀ row ∈ salesTable authorities, (adminFallback authorities).maxPriceOverridePercent ≤ row.maxPriceOverridePercent

/-- The actor is an admin without a sales authority. -/
def FallsBack (authorities : List RoleAuthority) (actor : Actor) : Prop :=
  salesAuthority authorities actor = none ∧ actor.isAdmin

instance (authorities : List RoleAuthority) : Decidable (OverridesFollow authorities) :=
  inferInstanceAs (Decidable (List.Pairwise _ _))

instance (authorities : List RoleAuthority) : Decidable (FallbackCovered authorities) :=
  inferInstanceAs (Decidable (∀ row ∈ _, _))

instance (authorities : List RoleAuthority) (actor : Actor) : Decidable (FallsBack authorities actor) :=
  inferInstanceAs (Decidable (_ ∧ _))

section Laws

variable {authorities : List RoleAuthority}

theorem salesRows_sublist (authorities : List RoleAuthority) (actor : Actor) :
    (salesRows authorities actor).Sublist (salesTable authorities) := by
  have hsplit : salesRows authorities actor =
      (salesTable authorities).filter fun item => item.roleKey ∈ actorDiscountRoles (some actor) := by
    unfold salesTable
    rw [List.filter_filter]
    rfl
  rw [hsplit]
  exact List.filter_sublist

theorem mem_salesRows {actor : Actor} {row : RoleAuthority} :
    row ∈ salesRows authorities actor ↔
      row ∈ salesTable authorities ∧ row.roleKey ∈ actorDiscountRoles (some actor) := by
  unfold salesRows salesTable
  rw [List.mem_filter, List.mem_filter, Bool.and_eq_true, decide_eq_true_iff, decide_eq_true_iff, and_assoc,
    and_comm (a := row.roleKey ∈ discountRoleKeys)]

/-- What another role matches overrides no less, where overrides follow discounts. -/
theorem override_le_of_follow (h : OverridesFollow authorities) {actor : Actor} {role : String}
    {old new : RoleAuthority} (hold : salesAuthority authorities actor = some old)
    (hnew : salesAuthority authorities (actor.withRole role) = some new) :
    old.maxPriceOverridePercent ≤ new.maxPriceOverridePercent := by
  have hmem := salesRows_subset authorities actor role (List.argmax_mem hold)
  have hmax := List.le_of_mem_argmax hmem hnew
  have hlaw := h.sublist (salesRows_sublist authorities (actor.withRole role))
  have hfirst : new.maxDiscountPercent ≤ old.maxDiscountPercent →
      (salesRows authorities (actor.withRole role)).idxOf new ≤
        (salesRows authorities (actor.withRole role)).idxOf old :=
    fun hle => List.index_of_argmax hnew hmem hle
  have hold' := List.idxOf_lt_length_of_mem hmem
  have hnew' := List.idxOf_lt_length_of_mem (List.argmax_mem hnew)
  rw [List.pairwise_iff_getElem] at hlaw
  rcases lt_trichotomy ((salesRows authorities (actor.withRole role)).idxOf old)
      ((salesRows authorities (actor.withRole role)).idxOf new) with hlt | heq | hlt
  · have hpair := (hlaw _ _ hold' hnew' hlt).2
    rw [List.getElem_idxOf, List.getElem_idxOf] at hpair
    exact hpair (lt_of_not_ge fun hle => absurd (hfirst hle) (not_le.mpr hlt))
  · rw [List.idxOf_inj hmem] at heq
    rw [heq]
  · have hpair := (hlaw _ _ hnew' hold' hlt).1
    rw [List.getElem_idxOf, List.getElem_idxOf] at hpair
    exact hpair hmax

/-- An actor of a role. -/
def actorOf (role : String) : Actor where
  id := "ada"
  roles := [role]

theorem actorDiscountRoles_actorOf {role : String} (h : role ≠ "") :
    actorDiscountRoles (some (actorOf role)) = [role] :=
  List.filter_eq_self.mpr fun _ hrole => decide_eq_true (List.mem_singleton.mp hrole ▸ h)

theorem isSalesRole_of_mem {row : RoleAuthority} (h : row ∈ salesTable authorities) :
    row.roleKey ∈ discountRoleKeys :=
  of_decide_eq_true (List.mem_filter.mp h).2

/-- The rows of an actor whose roles are those of a part of the table. -/
theorem salesRows_of_sublist (hdistinct : (authorities.map RoleAuthority.roleKey).Nodup) {rows : List RoleAuthority}
    (hrows : rows.Sublist (salesTable authorities)) {actor : Actor}
    (hroles : ∀ key ∈ discountRoleKeys,
      key ∈ actorDiscountRoles (some actor) ↔ key ∈ rows.map RoleAuthority.roleKey) :
    salesRows authorities actor = rows := by
  have htable : ((salesTable authorities).map RoleAuthority.roleKey).Nodup :=
    (List.filter_sublist.map _).nodup hdistinct
  have hnodup : (salesTable authorities).Nodup := List.Nodup.of_map _ htable
  refine (hnodup.perm_iff_eq_of_sublist (salesRows_sublist authorities actor) hrows).mp ?_
  refine (List.perm_ext_iff_of_nodup (hnodup.sublist (salesRows_sublist authorities actor)) (hnodup.sublist hrows)).mpr
    fun row => ?_
  rw [mem_salesRows]
  constructor
  · rintro ⟨hrow, hrole⟩
    obtain ⟨other, hother, hkey⟩ := List.mem_map.mp ((hroles _ (isSalesRole_of_mem hrow)).mp hrole)
    exact List.inj_on_of_nodup_map htable (hrows.subset hother) hrow hkey ▸ hother
  · intro hrow
    have htabled := hrows.subset hrow
    exact ⟨htabled, (hroles _ (isSalesRole_of_mem htabled)).mpr (List.mem_map_of_mem hrow)⟩

theorem salesAuthority_of_one (hdistinct : (authorities.map RoleAuthority.roleKey).Nodup) {row : RoleAuthority}
    (hrow : row ∈ salesTable authorities) {actor : Actor}
    (hroles : ∀ key ∈ discountRoleKeys, key ∈ actorDiscountRoles (some actor) ↔ key = row.roleKey) :
    salesAuthority authorities actor = some row := by
  unfold salesAuthority
  rw [salesRows_of_sublist hdistinct (List.singleton_sublist.mpr hrow) fun key hkey => by
    rw [hroles key hkey, List.map_singleton, List.mem_singleton]]
  rfl

theorem salesAuthority_of_two (hdistinct : (authorities.map RoleAuthority.roleKey).Nodup)
    {first second : RoleAuthority} (hrows : [first, second].Sublist (salesTable authorities)) {actor : Actor}
    (hroles : ∀ key ∈ discountRoleKeys,
      key ∈ actorDiscountRoles (some actor) ↔ key = first.roleKey ∨ key = second.roleKey) :
    salesAuthority authorities actor =
      if first.maxDiscountPercent < second.maxDiscountPercent then some second else some first := by
  unfold salesAuthority
  rw [salesRows_of_sublist hdistinct hrows fun key hkey => by
    rw [hroles key hkey, List.map_cons, List.map_singleton, List.mem_cons, List.mem_singleton], List.argmax_cons]
  rfl

theorem overrideLimit_of_sales {actor : Actor} {row : RoleAuthority} (h : salesAuthority authorities actor = some row) :
    overrideLimit authorities actor = row.maxPriceOverridePercent := by
  have hne : authorities ≠ [] := List.ne_nil_of_mem (mem_of_salesAuthority h)
  unfold overrideLimit
  rw [matchDiscountAuthority_eq hne, h]
  rfl

theorem roleKey_ne_empty {row : RoleAuthority} (h : row ∈ salesTable authorities) : row.roleKey ≠ "" := by
  intro hempty
  exact absurd (hempty ▸ isSalesRole_of_mem h) (by decide)

/-- Price overrides survive every further role of the actors who do not fall back, just if they follow discounts. -/
theorem overrides_kept_iff (h : ∀ row ∈ authorities, row.Nonneg)
    (hdistinct : (authorities.map RoleAuthority.roleKey).Nodup) :
    (∀ (actor : Actor) (role : String), ¬FallsBack authorities actor →
        overrideLimit authorities actor ≤ overrideLimit authorities (actor.withRole role)) ↔
      OverridesFollow authorities := by
  constructor
  · intro hkept
    refine List.pairwise_iff_forall_sublist.mpr fun {first second} hpair => ?_
    have hfirst : first ∈ salesTable authorities := hpair.subset List.mem_cons_self
    have hsecond : second ∈ salesTable authorities := hpair.subset (List.mem_cons_of_mem _ List.mem_cons_self)
    have hroles {row : RoleAuthority} (hrow : row ∈ salesTable authorities) :
        actorDiscountRoles (some (actorOf row.roleKey)) = [row.roleKey] :=
      actorDiscountRoles_actorOf (roleKey_ne_empty hrow)
    have hone {row : RoleAuthority} (hrow : row ∈ salesTable authorities) :
        salesAuthority authorities (actorOf row.roleKey) = some row :=
      salesAuthority_of_one hdistinct hrow fun key _ => by rw [hroles hrow, List.mem_singleton]
    have hmore {row other : RoleAuthority} (hrow : row ∈ salesTable authorities)
        (hother : other ∈ salesTable authorities) :
        actorDiscountRoles (some ((actorOf row.roleKey).withRole other.roleKey)) = [row.roleKey, other.roleKey] := by
      rw [actorDiscountRoles_withRole, hroles hrow, List.filter_eq_self.mpr]
      · rfl
      · exact fun _ hrole => decide_eq_true (List.mem_singleton.mp hrole ▸ roleKey_ne_empty hother)
    have hle {row other : RoleAuthority} (hrow : row ∈ salesTable authorities)
        (hmatched : salesAuthority authorities ((actorOf row.roleKey).withRole other.roleKey) = some other) :
        row.maxPriceOverridePercent ≤ other.maxPriceOverridePercent := by
      have hlimit := hkept (actorOf row.roleKey) other.roleKey fun hfalls => by
        rw [FallsBack, hone hrow] at hfalls
        cases hfalls.1
      rwa [overrideLimit_of_sales (hone hrow), overrideLimit_of_sales hmatched] at hlimit
    constructor
    · -- The role of the first row, given to an actor of the second.
      intro hdiscount
      refine hle hsecond ((salesAuthority_of_two hdistinct hpair fun key _ => ?_).trans (if_neg (not_lt.mpr hdiscount)))
      rw [hmore hsecond hfirst, List.mem_cons, List.mem_singleton]
      exact or_comm
    · intro hdiscount
      refine hle hfirst ((salesAuthority_of_two hdistinct hpair fun key _ => ?_).trans (if_pos hdiscount))
      rw [hmore hfirst hsecond, List.mem_cons, List.mem_singleton]
  · intro hlaw actor role hfirm
    refine (limit_withRole_iff (f := id) h (fun row hrow => hrow.priceOverride) actor role monotone_id).mpr ?_
    exact fun new hnew => ⟨fun old hold => override_le_of_follow hlaw hold hnew,
      fun hnone hadmin => absurd ⟨hnone, hadmin⟩ hfirm⟩

/-- Those of the actors who fall back survive just if every sales authority covers the fallback. -/
theorem fallback_kept_iff (h : ∀ row ∈ authorities, row.Nonneg)
    (hdistinct : (authorities.map RoleAuthority.roleKey).Nodup) :
    (∀ (actor : Actor) (role : String), FallsBack authorities actor →
        overrideLimit authorities actor ≤ overrideLimit authorities (actor.withRole role)) ↔
      FallbackCovered authorities := by
  have hlimit (actor : Actor) (role : String) :=
    limit_withRole_iff (f := id) h (fun row hrow => hrow.priceOverride) actor role monotone_id
  constructor
  · intro hkept row hrow
    have hadmin : actorDiscountRoles (some (actorOf "admin")) = ["admin"] := actorDiscountRoles_actorOf (by decide)
    have hnone : salesAuthority authorities (actorOf "admin") = none := by
      unfold salesAuthority
      rw [List.argmax_eq_none]
      refine List.eq_nil_iff_forall_not_mem.mpr fun other hother => ?_
      obtain ⟨htable, hrole⟩ := mem_salesRows.mp hother
      rw [hadmin, List.mem_singleton] at hrole
      exact absurd (hrole ▸ isSalesRole_of_mem htable) (by decide)
    have hfalls : FallsBack authorities (actorOf "admin") := ⟨hnone, by
      rw [Actor.isAdmin, hadmin]
      exact List.mem_cons_self⟩
    have hnew : salesAuthority authorities ((actorOf "admin").withRole row.roleKey) = some row := by
      refine salesAuthority_of_one hdistinct hrow fun key hkey => ?_
      rw [actorDiscountRoles_withRole, hadmin, List.filter_eq_self.mpr, List.singleton_append, List.mem_cons,
        List.mem_singleton, or_iff_right]
      · rintro rfl
        exact absurd hkey (by decide)
      · exact fun _ hrole => decide_eq_true (List.mem_singleton.mp hrole ▸ roleKey_ne_empty hrow)
    exact ((hlimit _ _).mp (hkept _ _ hfalls) row hnew).2 hnone hfalls.2
  · intro hcovered actor role hfalls
    refine (hlimit actor role).mpr fun new hnew => ⟨fun old hold => ?_, fun _ _ => ?_⟩
    · rw [hfalls.1] at hold
      cases hold
    · exact hcovered new ((salesRows_sublist authorities _).subset (List.argmax_mem hnew))

end Laws

/-! ## Discounts and prices -/

/-- What a customer's tier adds to a role's discount. -/
def stackedBonus (loyaltyTier : LoyaltyTier) (config : GovernanceConfig) : Num :=
  if config.allowLoyaltyStacking = false then 0 else loyaltyBonusPercent loyaltyTier.text

theorem ceiling_le_iff {most bonus old new : Num} :
    min most (old + bonus) ≤ min most (new + bonus) ↔ old ≤ new ∨ most ≤ new + bonus := by
  rw [le_min_iff, and_iff_right (min_le_left _ _), min_le_iff, add_le_add_iff_right]
  exact or_comm

/-- With an accepted list, a further role leaves an actor the discount ceiling, unless it ends an admin's fallback
and the fallback's counts for more. It leaves every actor the price override just if, of the sales authorities,
none of a larger discount allows a smaller override, nor any of them a smaller one than an admin falls back to: the
former is what the actors need who do not fall back, the latter what those need who do. -/
theorem more_roles_iff {authorities stored : List RoleAuthority}
    (h : validateRoleAuthorities authorities = .ok stored) :
    (∀ (actor : Actor) (role : String) (loyaltyTier : LoyaltyTier) (config : GovernanceConfig),
      (actorDiscountCeiling authorities (some actor) loyaltyTier config).ceiling ≤
          (actorDiscountCeiling authorities (some (actor.withRole role)) loyaltyTier config).ceiling ↔
        ∀ new ∈ salesAuthority authorities (actor.withRole role), FallsBack authorities actor →
          (adminFallback authorities).maxDiscountPercent ≤ new.maxDiscountPercent ∨
            config.maxCommercialDiscountPercent ≤ new.maxDiscountPercent + stackedBonus loyaltyTier config) ∧
    ((∀ (actor : Actor) (role : String), ¬FallsBack authorities actor →
        overrideLimit authorities actor ≤ overrideLimit authorities (actor.withRole role)) ↔
      OverridesFollow authorities) ∧
    ((∀ (actor : Actor) (role : String), FallsBack authorities actor →
        overrideLimit authorities actor ≤ overrideLimit authorities (actor.withRole role)) ↔
      FallbackCovered authorities) := by
  have hnonneg := nonneg_of_validated h
  have hdistinct := distinct_of_validated h
  refine ⟨fun actor role loyaltyTier config => ?_, overrides_kept_iff hnonneg hdistinct,
    fallback_kept_iff hnonneg hdistinct⟩
  have hmono : Monotone fun roleMax : Num =>
      min config.maxCommercialDiscountPercent (roleMax + stackedBonus loyaltyTier config) :=
    fun x y hle => min_le_min_left _ (add_le_add_left hle _)
  have hlimit := limit_withRole_iff hnonneg (fun row hrow => hrow.discount) actor role hmono
  refine hlimit.trans (forall₂_congr fun new hnew => ?_)
  rw [ceiling_le_iff]
  refine (and_iff_right fun old hold => ?_).trans and_imp.symm
  obtain ⟨new', hnew', hle⟩ := salesAuthority_withRole hold role
  obtain rfl := Option.some.inj (hnew'.symm.trans hnew)
  exact hmono hle

def administratorActor : Actor where
  id := "ada"
  role := some "admin"

/-- Of the seeded authorities, an admin who becomes a salesperson has the salesperson's. -/
theorem admin_sells_less :
    validateRoleAuthorities defaultRoleAuthorities = .ok defaultRoleAuthorities ∧
      (actorDiscountCeiling defaultRoleAuthorities (some (administratorActor.withRole "staff")) .new
          defaultGovernance).ceiling <
        (actorDiscountCeiling defaultRoleAuthorities (some administratorActor) .new defaultGovernance).ceiling ∧
      overrideLimit defaultRoleAuthorities (administratorActor.withRole "staff") <
        overrideLimit defaultRoleAuthorities administratorActor := by
  refine ⟨rfl, ?_, ?_⟩ <;> decide +kernel

/-- A salesperson who becomes a manager has more of both. -/
theorem manager_sells_more :
    let clerk : Actor := { id := "bob", role := some "staff" }
    (actorDiscountCeiling defaultRoleAuthorities (some clerk) .new defaultGovernance).ceiling ≤
        (actorDiscountCeiling defaultRoleAuthorities (some (clerk.withRole "manager")) .new defaultGovernance).ceiling ∧
      overrideLimit defaultRoleAuthorities clerk ≤ overrideLimit defaultRoleAuthorities (clerk.withRole "manager") := by
  intro clerk
  have hvalid : validateRoleAuthorities defaultRoleAuthorities = .ok defaultRoleAuthorities := rfl
  obtain ⟨hceiling, hoverride, -⟩ := more_roles_iff hvalid
  have hfirm : ¬FallsBack defaultRoleAuthorities clerk := by decide
  constructor
  · exact (hceiling clerk "manager" .new defaultGovernance).mpr fun _ _ hfalls => absurd hfalls hfirm
  · exact hoverride.mpr (by decide) clerk "manager" hfirm

end DealFlow360
