import DealFlow360.Lib.Machine
import DealFlow360.RateLimit.RateLimiter

/-!
# Who is admitted

The Redis script answers with the count at the increment, so the calls of a
window that it admits are the first ones up to the limit. The memory store
answers with the object it goes on counting in: a call that decides late reads
the later increments too, and is refused if they have passed the limit.

Counts are followed per window: `Numbered` says which of the counts each call
of a window has made, and `Alike` that both stores have the same windows open
with the same counts. A decision of a call is then a comparison with the limit
at the time it is made.

- `incrementWindow_alike`: both stores open and count windows alike;
- `settled_iff`: when the window's calls have all decided, who was admitted;
- `admitsLimit_iff`: exactly as many are admitted as the limit allows, the same
  as against Redis, if and only if no call of the window waits for its decision
  when a further one passes the limit.

`atOnce_refused` is the window in which every call increments before any
decides.
-/

namespace DealFlow360.RateLimit

abbrev MemoryState := LimiterState MemoryRateLimitStore ℕ
abbrev RedisState := LimiterState (List (Expiring.Entry String ℕ)) WindowReply

def memoryStart : MemoryState := { store := {} }
def redisStart : RedisState := { store := [] }

/-! ## Counting -/

section Counting

variable {store : MemoryRateLimitStore} {now : Timestamp} {key : String} {entry window : ℕ}

theorem getElem?_concat_of_ne {α : Type} {l : List α} {x : α} {i : ℕ} (h : i ≠ l.length) :
    (l ++ [x])[i]? = l[i]? := by
  rw [List.getElem?_append]
  split
  · rfl
  · rename_i hge
    rw [List.getElem?_eq_none (by rw [List.length_singleton]; omega), List.getElem?_eq_none (by omega)]

theorem live_eq_some (h : store.live now key = some entry) :
    ∃ object, store.current key = some (entry, object) ∧ now < object.resetAt := by
  obtain ⟨⟨found, object⟩, hfound, rfl⟩ := Option.map_eq_some_iff.mp h
  obtain ⟨hcurrent, hopen⟩ := Option.filter_eq_some_iff.mp hfound
  exact ⟨object, hcurrent, of_decide_eq_true hopen⟩

theorem current_eq_some {object : RateLimitIncrementResult} (h : store.current key = some (entry, object)) :
    Table.lookup MemorySlot.key key store.entries = some { key, entry } ∧ store.objects[entry]? = some object := by
  obtain ⟨slot, hslot, hobject⟩ := Option.bind_eq_some_iff.mp h
  obtain ⟨found, hfound, heq⟩ := Option.map_eq_some_iff.mp hobject
  cases heq
  have hkey := Table.key_of_lookup hslot
  subst hkey
  exact ⟨hslot, hfound⟩

/-- An increment counts in the object it answers with, and nowhere else. -/
theorem count_increment (store : MemoryRateLimitStore) (now : Timestamp) (key : String) (windowMs window : ℕ) :
    ((store.increment now key windowMs).1.object window).count =
      (store.object window).count + if window = (store.increment now key windowMs).2 then 1 else 0 := by
  unfold MemoryRateLimitStore.increment
  cases hlive : store.live now key with
  | none =>
      unfold MemoryRateLimitStore.object
      dsimp only
      by_cases hwindow : window = store.objects.length
      · rw [hwindow, List.getElem?_concat_length, List.getElem?_eq_none le_rfl, if_pos rfl]
        rfl
      · rw [getElem?_concat_of_ne hwindow, if_neg hwindow, Nat.add_zero]
  | some entry =>
      obtain ⟨object, hcurrent, -⟩ := live_eq_some hlive
      have hobject := (current_eq_some hcurrent).2
      unfold MemoryRateLimitStore.object
      dsimp only
      by_cases hwindow : window = entry
      · rw [hwindow, List.getElem?_modify_eq, hobject, if_pos rfl]
        rfl
      · rw [List.getElem?_modify_ne _ _ (Ne.symm hwindow), if_neg hwindow, Nat.add_zero]

theorem increment_live (h : store.live now key = some entry) (windowMs : ℕ) :
    (store.increment now key windowMs).2 = entry := by
  unfold MemoryRateLimitStore.increment
  rw [h]

/-- A window that starts has not counted before. -/
theorem increment_starts (h : store.live now key = none) (windowMs : ℕ) :
    (store.object (store.increment now key windowMs).2).count = 0 := by
  unfold MemoryRateLimitStore.increment MemoryRateLimitStore.object
  rw [h]
  dsimp only
  rw [List.getElem?_eq_none le_rfl]
  rfl

end Counting

/-! ## Windows of the memory store -/

section Windows

variable {options : RateLimiterOptions} {s : MemoryState} {window : ℕ}

/-- The calls that were counted in the window number from one on, and what they have decided: none is admitted
past the limit, and while the limit is not passed all are. -/
structure Numbered (options : RateLimiterOptions) (window : ℕ) (s : MemoryState) : Prop where
  distinct : Table.Distinct ConsumeCall.id s.calls
  bounded : ∀ call ∈ s.calls, call.result = window →
    1 ≤ call.counted ∧ call.counted ≤ (s.store.object window).count
  positions : ∀ limit, s.calls.countP (fun call => decide (call.result = window ∧ call.counted ≤ limit)) =
    min (s.store.object window).count limit
  refused : ∀ call ∈ s.calls, call.result = window → ∀ decision, call.decision = some decision →
    decision.allowed = true → call.counted ≤ options.max
  admitted : (s.store.object window).count ≤ options.max → ∀ call ∈ s.calls, call.result = window →
    ∀ decision, call.decision = some decision → decision.allowed = true

/-- Once the limit is passed, the calls up to it have all been admitted. -/
def Settled (options : RateLimiterOptions) (window : ℕ) (s : MemoryState) : Prop :=
  options.max < (s.store.object window).count → ∀ call ∈ s.calls, call.result = window →
    call.counted ≤ options.max → ∃ decision, call.decision = some decision ∧ decision.allowed = true

/-- No call of the window waits for its decision when a further one passes the limit. -/
def NoneWaits (options : RateLimiterOptions) (window : ℕ) (s : MemoryState) : LimiterEvent → Prop
  | .consume id key => Table.lookup ConsumeCall.id id s.calls = none →
      s.store.live s.now (options.storeKey key) = some window → (s.store.object window).count = options.max →
      ∀ call ∈ s.calls, call.result = window → call.decision.isSome = true
  | .decide _ | .wait _ => True

instance : ∀ event, Decidable (NoneWaits options window s event)
  | .consume id key => inferInstanceAs (Decidable (Table.lookup ConsumeCall.id id s.calls = none →
      s.store.live s.now (options.storeKey key) = some window → (s.store.object window).count = options.max →
      ∀ call ∈ s.calls, call.result = window → call.decision.isSome = true))
  | .decide _ | .wait _ => .isTrue trivial

theorem mem_decided {call other : ConsumeCall ℕ} {calls : List (ConsumeCall ℕ)}
    (hdistinct : Table.Distinct ConsumeCall.id calls) {decision : Option RateLimitDecision} :
    other ∈ Table.upsert ConsumeCall.id { call with decision } calls ↔
      other = { call with decision } ∨ other ∈ calls ∧ other.id ≠ call.id :=
  Table.mem_upsert_iff hdistinct

/-- A new call. -/
theorem mem_counted {call other : ConsumeCall ℕ} {calls : List (ConsumeCall ℕ)}
    (hdistinct : Table.Distinct ConsumeCall.id calls)
    (hnew : Table.lookup ConsumeCall.id call.id calls = none) :
    other ∈ Table.upsert ConsumeCall.id call calls ↔ other = call ∨ other ∈ calls := by
  rw [Table.mem_upsert_iff hdistinct]
  refine or_congr_right (and_iff_left_of_imp fun hother => ?_)
  exact Table.lookup_eq_none.mp hnew other hother

theorem numbered_consume (hs : Numbered options window s) {id : Id}
    (hnew : Table.lookup ConsumeCall.id id s.calls = none) (key : String) :
    Numbered options window
      { s with
        store := (s.store.increment s.now key options.windowMs).1
        calls := Table.upsert ConsumeCall.id
          { id, result := (s.store.increment s.now key options.windowMs).2,
            counted := ((s.store.increment s.now key options.windowMs).1.object
              (s.store.increment s.now key options.windowMs).2).count } s.calls } := by
  have hcount := count_increment s.store s.now key options.windowMs window
  have hown := count_increment s.store s.now key options.windowMs (s.store.increment s.now key options.windowMs).2
  rw [if_pos rfl] at hown
  generalize s.store.increment s.now key options.windowMs = next at hcount hown ⊢
  obtain ⟨store, result⟩ := next
  dsimp only at hcount hown ⊢
  let call : ConsumeCall ℕ := { id, result, counted := (store.object result).count }
  have hmem {other : ConsumeCall ℕ} : other ∈ Table.upsert ConsumeCall.id call s.calls ↔
      other = call ∨ other ∈ s.calls := mem_counted hs.distinct hnew
  have hgrows : (s.store.object window).count ≤ (store.object window).count := hcount ▸ Nat.le_add_right _ _
  refine ⟨Table.distinct_upsert hs.distinct call, ?_, ?_, ?_, ?_⟩
  · intro other hother hresult
    rcases hmem.mp hother with rfl | hother
    · have hresult : result = window := hresult
      subst hresult
      exact ⟨by show 1 ≤ (store.object result).count; omega, le_rfl⟩
    · obtain ⟨hone, hle⟩ := hs.bounded other hother hresult
      exact ⟨hone, hle.trans hgrows⟩
  · intro limit
    show (Table.upsert ConsumeCall.id call s.calls).countP _ = min (store.object window).count limit
    rw [Table.countP_upsert_of_none _ hnew, hs.positions limit, hcount]
    by_cases hresult : window = result
    · subst hresult
      rw [if_pos rfl]
      by_cases hle : (store.object window).count ≤ limit
      · rw [if_pos (decide_eq_true ⟨rfl, hle⟩)]
        omega
      · rw [if_neg fun h => hle (of_decide_eq_true h).2]
        omega
    · rw [if_neg hresult, if_neg fun h => hresult (of_decide_eq_true h).1.symm, Nat.add_zero, Nat.add_zero]
  · intro other hother hresult decision hdecision
    rcases hmem.mp hother with rfl | hother
    · cases hdecision
    · exact hs.refused other hother hresult decision hdecision
  · intro hmax other hother hresult decision hdecision
    rcases hmem.mp hother with rfl | hother
    · cases hdecision
    · exact hs.admitted (hgrows.trans hmax) other hother hresult decision hdecision

theorem numbered_decide (hs : Numbered options window s) {call : ConsumeCall ℕ}
    (hcall : Table.lookup ConsumeCall.id call.id s.calls = some call) :
    Numbered options window
      { s with
        calls := Table.upsert ConsumeCall.id
          { call with decision := some (options.decision (s.store.object call.result)) } s.calls } := by
  have hold : call ∈ s.calls := Table.mem_of_lookup hcall
  refine ⟨Table.distinct_upsert hs.distinct _, ?_, ?_, ?_, ?_⟩
  · intro other hother hresult
    rcases (mem_decided hs.distinct).mp hother with rfl | ⟨hother, -⟩
    · exact hs.bounded call hold hresult
    · exact hs.bounded other hother hresult
  · intro limit
    let decided := { call with decision := some (options.decision (s.store.object call.result)) }
    have hlookup : Table.lookup ConsumeCall.id decided.id s.calls = some call := hcall
    have hcount := Table.countP_upsert
      (fun call => decide (call.result = window ∧ call.counted ≤ limit)) hlookup
    rw [← hs.positions limit]
    exact Nat.add_right_cancel hcount
  · intro other hother hresult decision hdecision hallowed
    rcases (mem_decided hs.distinct).mp hother with rfl | ⟨hother, -⟩
    · cases hdecision
      have hresult : call.result = window := hresult
      have hle := (hs.bounded call hold hresult).2
      rw [← hresult] at hle
      exact hle.trans (of_decide_eq_true hallowed)
    · exact hs.refused other hother hresult decision hdecision hallowed
  · intro hmax other hother hresult decision hdecision
    rcases (mem_decided hs.distinct).mp hother with rfl | ⟨hother, -⟩
    · cases hdecision
      have hresult : call.result = window := hresult
      rw [← hresult] at hmax
      exact decide_eq_true hmax
    · exact hs.admitted hmax other hother hresult decision hdecision

theorem numbered_step (hs : Numbered options window s) (event : LimiterEvent) :
    Numbered options window (s.step memoryStore options event) := by
  cases event with
  | consume id key =>
      unfold LimiterState.step
      dsimp only
      split
      · exact hs
      · rename_i hnew
        exact numbered_consume hs hnew (options.storeKey key)
  | decide id =>
      unfold LimiterState.step
      dsimp only
      split
      · exact hs
      · rename_i call hcall
        split
        · exact hs
        · have hid := Table.key_of_lookup hcall
          subst hid
          exact numbered_decide hs hcall
  | wait milliseconds => exact ⟨hs.distinct, hs.bounded, hs.positions, hs.refused, hs.admitted⟩

theorem numbered_start : Numbered options window memoryStart where
  distinct := List.nodup_nil
  bounded := nofun
  positions limit := (Nat.zero_min limit).symm
  refused := nofun
  admitted _ := nofun

theorem settled_consume (hs : Numbered options window s) {id : Id} {key : String}
    (hnew : Table.lookup ConsumeCall.id id s.calls = none) :
    Settled options window (s.step memoryStore options (.consume id key)) ↔
      Settled options window s ∧ NoneWaits options window s (.consume id key) := by
  let next := s.store.increment s.now (options.storeKey key) options.windowMs
  have hcount : (next.1.object window).count =
      (s.store.object window).count + if window = next.2 then 1 else 0 :=
    count_increment s.store s.now (options.storeKey key) options.windowMs window
  let call : ConsumeCall ℕ := { id, result := next.2, counted := (next.1.object next.2).count }
  have hstep : s.step memoryStore options (.consume id key) =
      { s with store := next.1, calls := Table.upsert ConsumeCall.id call s.calls } := by
    unfold LimiterState.step
    dsimp only
    rw [hnew]
    rfl
  have hmem {other : ConsumeCall ℕ} : other ∈ Table.upsert ConsumeCall.id call s.calls ↔
      other = call ∨ other ∈ s.calls := mem_counted hs.distinct hnew
  rw [hstep]
  constructor
  · intro h
    refine ⟨fun hmax other hother hresult hle => ?_, fun _ hlive hfull other hother hresult => ?_⟩
    · refine h ?_ other (hmem.mpr (.inr hother)) hresult hle
      exact hmax.trans_le (hcount ▸ Nat.le_add_right _ _)
    · have hwindow : window = next.2 := (increment_live hlive options.windowMs).symm
      have hle := (hs.bounded other hother hresult).2
      rw [if_pos hwindow] at hcount
      obtain ⟨decision, hdecision, -⟩ := h (by show options.max < (next.1.object window).count; omega) other
        (hmem.mpr (.inr hother)) hresult (hfull ▸ hle)
      rw [hdecision]
      rfl
  · rintro ⟨hsettled, hnone⟩ hmax other hother hresult hle
    replace hmax : options.max < (next.1.object window).count := hmax
    rcases hmem.mp hother with rfl | hother
    · have hresult : next.2 = window := hresult
      have hle : (next.1.object next.2).count ≤ options.max := hle
      rw [hresult] at hle
      exact absurd hmax (Nat.not_lt.mpr hle)
    · by_cases hbefore : options.max < (s.store.object window).count
      · exact hsettled hbefore other hother hresult hle
      · -- the call that passes the limit is counted now
        have hwindow : window = next.2 := by
          by_contra hne
          rw [if_neg hne] at hcount
          omega
        rw [if_pos hwindow] at hcount
        have hfull : (s.store.object window).count = options.max := by omega
        cases hlive : s.store.live s.now (options.storeKey key) with
        | none =>
            have hzero := increment_starts hlive options.windowMs
            have hbounded := hs.bounded other hother hresult
            rw [hwindow] at hbounded
            exact absurd (hbounded.1.trans hbounded.2) (by rw [hzero]; omega)
        | some entry =>
            have hentry : entry = window := (increment_live hlive options.windowMs).symm.trans hwindow.symm
            subst hentry
            obtain ⟨decision, hdecision⟩ :=
              Option.isSome_iff_exists.mp (hnone hnew hlive hfull other hother hresult)
            exact ⟨decision, hdecision, hs.admitted hfull.le other hother hresult decision hdecision⟩

theorem settled_decide (hs : Numbered options window s) {call : ConsumeCall ℕ}
    (hcall : Table.lookup ConsumeCall.id call.id s.calls = some call) (hopen : call.decision = none) :
    Settled options window
        { s with
          calls := Table.upsert ConsumeCall.id
            { call with decision := some (options.decision (s.store.object call.result)) } s.calls } ↔
      Settled options window s := by
  have hold : call ∈ s.calls := Table.mem_of_lookup hcall
  constructor
  · intro h hmax other hother hresult hle
    by_cases hid : other.id = call.id
    · -- whoever decides only now is refused
      have heq : other = call := List.inj_on_of_nodup_map hs.distinct hother hold hid
      subst heq
      obtain ⟨decision, hdecision, hallowed⟩ :=
        h hmax _ ((mem_decided hs.distinct).mpr (.inl rfl)) hresult hle
      cases hdecision
      have hcount : (s.store.object other.result).count ≤ options.max := of_decide_eq_true hallowed
      rw [hresult] at hcount
      exact absurd hmax (Nat.not_lt.mpr hcount)
    · exact h hmax other ((mem_decided hs.distinct).mpr (.inr ⟨hother, hid⟩)) hresult hle
  · intro h hmax other hother hresult hle
    rcases (mem_decided hs.distinct).mp hother with rfl | ⟨hother, -⟩
    · obtain ⟨decision, hdecision, -⟩ := h hmax call hold hresult hle
      rw [hopen] at hdecision
      cases hdecision
    · exact h hmax other hother hresult hle

theorem settled_step (hs : Numbered options window s) (event : LimiterEvent) :
    Settled options window (s.step memoryStore options event) ↔
      Settled options window s ∧ NoneWaits options window s event := by
  cases event with
  | consume id key =>
      cases hfound : Table.lookup ConsumeCall.id id s.calls with
      | none => exact settled_consume hs hfound
      | some call =>
          have hstep : s.step memoryStore options (.consume id key) = s := by
            unfold LimiterState.step
            dsimp only
            rw [hfound]
          rw [hstep]
          exact (and_iff_left fun hnew => nomatch hfound.symm.trans hnew).symm
  | decide id =>
      rw [show NoneWaits options window s (.decide id) = True from rfl, and_true]
      unfold LimiterState.step
      dsimp only
      split
      · exact Iff.rfl
      · rename_i call hcall
        split
        · exact Iff.rfl
        · rename_i hopen
          have hid := Table.key_of_lookup hcall
          subst hid
          exact settled_decide hs hcall hopen
  | wait milliseconds => exact (and_iff_left trivial).symm

/-- Once all its calls have decided, the window is settled exactly if those up to the limit are admitted. -/
theorem settled_iff (hs : Numbered options window s)
    (hdecided : ∀ call ∈ s.calls, call.result = window → call.decision.isSome = true) :
    Settled options window s ↔ ∀ call ∈ s.calls, call.result = window →
      ∀ decision, call.decision = some decision → decision.allowed = decide (call.counted ≤ options.max) := by
  constructor
  · intro h call hcall hresult decision hdecision
    by_cases hle : call.counted ≤ options.max
    · rw [decide_eq_true hle]
      by_cases hmax : options.max < (s.store.object window).count
      · obtain ⟨found, hfound, hallowed⟩ := h hmax call hcall hresult hle
        cases hdecision.symm.trans hfound
        exact hallowed
      · exact hs.admitted (Nat.le_of_not_lt hmax) call hcall hresult decision hdecision
    · rw [decide_eq_false hle]
      exact Bool.eq_false_of_not_eq_true fun hallowed =>
        hle (hs.refused call hcall hresult decision hdecision hallowed)
  · intro h hmax call hcall hresult hle
    obtain ⟨decision, hdecision⟩ := Option.isSome_iff_exists.mp (hdecided call hcall hresult)
    exact ⟨decision, hdecision, (h call hcall hresult decision hdecision).trans (decide_eq_true hle)⟩

def ConsumeCall.allowed {ρ : Type} (call : ConsumeCall ρ) : Bool :=
  call.decision.any RateLimitDecision.allowed

/-- Then as many are admitted as fit. -/
theorem allowed_of_settled (hs : Numbered options window s)
    (hdecided : ∀ call ∈ s.calls, call.result = window → call.decision.isSome = true)
    (hsettled : Settled options window s) :
    s.calls.countP (fun call => decide (call.result = window) && call.allowed) =
      min (s.calls.countP fun call => decide (call.result = window)) options.max := by
  have hall : s.calls.countP (fun call => decide (call.result = window)) = (s.store.object window).count := by
    rw [← Nat.min_self (s.store.object window).count, ← hs.positions]
    refine List.countP_congr fun call hcall => ?_
    rw [decide_eq_true_iff, decide_eq_true_iff]
    exact (and_iff_left_of_imp fun hresult => (hs.bounded call hcall hresult).2).symm
  rw [hall, ← hs.positions]
  refine List.countP_congr fun call hcall => ?_
  rw [Bool.and_eq_true, decide_eq_true_iff, decide_eq_true_iff]
  refine and_congr_right fun hresult => ?_
  obtain ⟨decision, hdecision⟩ := Option.isSome_iff_exists.mp (hdecided call hcall hresult)
  have hallowed := (settled_iff hs hdecided).mp hsettled call hcall hresult decision hdecision
  unfold ConsumeCall.allowed
  rw [hdecision, Option.any_some, hallowed, decide_eq_true_iff]

end Windows

/-! ## The same calls against Redis -/

/-- The objects of the entries are there, have counted, and belong to one key each. -/
structure WellKept (store : MemoryRateLimitStore) : Prop where
  slots : ∀ slot ∈ store.entries, slot.entry < store.objects.length
  positive : ∀ key entry object, store.current key = some (entry, object) → 1 ≤ object.count
  apart : ∀ key other entry object object', store.current key = some (entry, object) →
    store.current other = some (entry, object') → key = other

/-- The two runs have made the same calls and keep the same windows. -/
structure Alike (s : MemoryState) (t : RedisState) : Prop where
  now : t.now = s.now
  kept : WellKept s.store
  windows : ∀ key, (Table.lookup Expiring.Entry.key key t.store).map (fun entry => (entry.value, entry.expiresAt)) =
    (s.store.current key).map fun entry => (entry.2.count, some entry.2.resetAt)
  calls : ∀ id, (Table.lookup ConsumeCall.id id t.calls).map (fun call => (call.counted, call.decision.isSome)) =
    (Table.lookup ConsumeCall.id id s.calls).map fun call => (call.counted, call.decision.isSome)

section Redis

variable {store : MemoryRateLimitStore} {now : Timestamp} {key : String} {windowMs : ℕ}

/-- A new window is that of its key, and the others stay. -/
theorem current_starts (hkept : WellKept store) (hlive : store.live now key = none) (other : String) :
    (store.increment now key windowMs).1.current other =
      if key = other then some (store.objects.length, { count := 1, resetAt := now + windowMs })
      else store.current other := by
  unfold MemoryRateLimitStore.increment
  rw [hlive]
  unfold MemoryRateLimitStore.current
  dsimp only
  rw [Table.lookup_upsert]
  by_cases hkey : key = other
  · rw [if_pos hkey, if_pos hkey, Option.bind_some, List.getElem?_concat_length]
    rfl
  · rw [if_neg hkey, if_neg hkey]
    cases hslot : Table.lookup MemorySlot.key other store.entries with
    | none => rfl
    | some slot =>
        have hlt := hkept.slots slot (Table.mem_of_lookup hslot)
        rw [Option.bind_some, Option.bind_some, getElem?_concat_of_ne hlt.ne]

theorem current_counts (hkept : WellKept store) {entry : ℕ} {object : RateLimitIncrementResult}
    (hcurrent : store.current key = some (entry, object)) (hlive : store.live now key = some entry)
    (other : String) :
    (store.increment now key windowMs).1.current other =
      if key = other then some (entry, { object with count := object.count + 1 }) else store.current other := by
  unfold MemoryRateLimitStore.increment
  rw [hlive]
  obtain ⟨hslot, hobject⟩ := current_eq_some hcurrent
  by_cases hkey : key = other
  · subst hkey
    unfold MemoryRateLimitStore.current
    dsimp only
    rw [if_pos rfl, hslot, Option.bind_some, List.getElem?_modify_eq, hobject]
    rfl
  · rw [if_neg hkey]
    cases hother : Table.lookup MemorySlot.key other store.entries with
    | none =>
        unfold MemoryRateLimitStore.current
        dsimp only
        rw [hother]
        rfl
    | some slot =>
        have hne : entry ≠ slot.entry := by
          intro heq
          have hfound := hkept.apart key other entry object object hcurrent
          refine hkey (hfound ?_)
          unfold MemoryRateLimitStore.current
          rw [hother, Option.bind_some, ← heq, hobject]
          rfl
        unfold MemoryRateLimitStore.current
        dsimp only
        rw [hother, Option.bind_some, Option.bind_some, List.getElem?_modify_ne _ _ hne]

theorem lt_of_current (hkept : WellKept store) {entry : ℕ} {object : RateLimitIncrementResult}
    (h : store.current key = some (entry, object)) : entry < store.objects.length :=
  hkept.slots _ (Table.mem_of_lookup (current_eq_some h).1)

theorem wellKept_increment (hkept : WellKept store) (now : Timestamp) (key : String) (windowMs : ℕ) :
    WellKept (store.increment now key windowMs).1 := by
  cases hlive : store.live now key with
  | none =>
      have hcurrent := @current_starts _ _ _ windowMs hkept hlive
      refine ⟨?_, ?_, ?_⟩
      · unfold MemoryRateLimitStore.increment
        rw [hlive]
        intro slot hslot
        show slot.entry < (store.objects ++ _).length
        rw [List.length_append, List.length_singleton]
        rcases Table.mem_upsert hslot with rfl | hslot
        · exact Nat.lt_succ_self _
        · exact Nat.lt_succ_of_lt (hkept.slots slot hslot)
      · intro other entry object hother
        rw [hcurrent] at hother
        split at hother
        · cases hother
          exact le_rfl
        · exact hkept.positive other entry object hother
      · intro first second entry object object' hfirst hsecond
        rw [hcurrent] at hfirst hsecond
        split at hfirst
        · rename_i heq
          cases hfirst
          split at hsecond
          · rename_i heq'
            exact heq.symm.trans heq'
          · exact absurd (lt_of_current hkept hsecond) (Nat.lt_irrefl _)
        · split at hsecond
          · cases hsecond
            exact absurd (lt_of_current hkept hfirst) (Nat.lt_irrefl _)
          · exact hkept.apart first second entry object object' hfirst hsecond
  | some entry =>
      obtain ⟨object, hfound, -⟩ := live_eq_some hlive
      have hcurrent := @current_counts _ _ _ windowMs hkept _ _ hfound hlive
      refine ⟨?_, ?_, ?_⟩
      · unfold MemoryRateLimitStore.increment
        rw [hlive]
        intro slot hslot
        show slot.entry < (store.objects.modify _ _).length
        rw [List.length_modify]
        exact hkept.slots slot hslot
      · intro other found object' hother
        rw [hcurrent] at hother
        split at hother
        · cases hother
          exact Nat.le_add_left 1 _
        · exact hkept.positive other found object' hother
      · intro first second found object' object'' hfirst hsecond
        rw [hcurrent] at hfirst hsecond
        split at hfirst
        · rename_i heq
          cases hfirst
          split at hsecond
          · rename_i heq'
            exact heq.symm.trans heq'
          · exact heq.symm.trans (hkept.apart key second _ _ _ hfound hsecond)
        · split at hsecond
          · rename_i heq'
            cases hsecond
            exact (hkept.apart first key _ _ _ hfirst hfound).trans heq'
          · exact hkept.apart first second found object' object'' hfirst hsecond

/-- Both stores find the same window open, and count it alike. -/
theorem incrementWindow_alike (hkept : WellKept store) {entries : List (Expiring.Entry String ℕ)}
    (hwindows : ∀ key, (Table.lookup Expiring.Entry.key key entries).map (fun entry => (entry.value, entry.expiresAt)) =
      (store.current key).map fun entry => (entry.2.count, some entry.2.resetAt)) (now : Timestamp) (key : String)
    (windowMs : ℕ) :
    (incrementWindow now key windowMs entries).2.current =
        ((store.increment now key windowMs).1.object (store.increment now key windowMs).2).count ∧
      ∀ other, (Table.lookup Expiring.Entry.key other (incrementWindow now key windowMs entries).1).map
          (fun entry => (entry.value, entry.expiresAt)) =
        ((store.increment now key windowMs).1.current other).map fun entry =>
          (entry.2.count, some entry.2.resetAt) := by
  have hcount := count_increment store now key windowMs (store.increment now key windowMs).2
  rw [if_pos rfl] at hcount
  cases hlive : store.live now key with
  | none =>
      have hfound : (Table.lookup Expiring.Entry.key key entries).filter (Expiring.Entry.live now) = none := by
        have hkey := hwindows key
        cases hlookup : Table.lookup Expiring.Entry.key key entries with
        | none => rfl
        | some entry =>
            rw [hlookup] at hkey
            obtain ⟨⟨found, object⟩, hcurrent, heq⟩ := Option.map_eq_some_iff.mp hkey.symm
            obtain ⟨-, hexpires⟩ := Prod.mk.inj heq
            rw [Option.filter_some, if_neg]
            intro hopen
            unfold Expiring.Entry.live at hopen
            rw [← hexpires] at hopen
            unfold MemoryRateLimitStore.live at hlive
            have hstill : decide (now < (found, object).2.resetAt) = true := hopen
            rw [hcurrent, Option.filter_some, if_pos hstill] at hlive
            cases hlive
      rw [increment_starts hlive] at hcount
      refine ⟨hcount.symm ▸ ?_, fun other => ?_⟩
      · unfold incrementWindow
        rw [hfound]
        rfl
      · rw [current_starts hkept hlive]
        unfold incrementWindow
        rw [hfound]
        dsimp only
        rw [Table.lookup_upsert]
        by_cases hkey : key = other
        · rw [if_pos hkey, if_pos hkey]
          rfl
        · rw [if_neg hkey, if_neg hkey]
          exact hwindows other
  | some entry =>
      obtain ⟨object, hcurrent, hopen⟩ := live_eq_some hlive
      have hkey := hwindows key
      rw [hcurrent] at hkey
      obtain ⟨⟨foundKey, value, expiresAt⟩, hlookup, heq⟩ := Option.map_eq_some_iff.mp hkey
      obtain ⟨hvalue, hexpires⟩ := Prod.mk.inj heq
      dsimp only at hvalue hexpires
      subst hvalue hexpires
      have hfound : (Table.lookup Expiring.Entry.key key entries).filter (Expiring.Entry.live now) =
          some { key := foundKey, value := object.count, expiresAt := some object.resetAt } := by
        rw [hlookup, Option.filter_some, if_pos]
        exact decide_eq_true hopen
      have hpositive := hkept.positive key entry object hcurrent
      have hobject : (store.object entry).count = object.count := by
        unfold MemoryRateLimitStore.object
        rw [(current_eq_some hcurrent).2]
        rfl
      rw [increment_live hlive, hobject] at hcount
      have hne : object.count + 1 ≠ 1 := by omega
      refine ⟨?_, fun other => ?_⟩
      · rw [increment_live hlive, hcount]
        unfold incrementWindow
        rw [hfound]
        rfl
      · rw [current_counts hkept hcurrent hlive]
        unfold incrementWindow
        rw [hfound]
        dsimp only [Option.map_some, Option.getD_some, Option.bind_some]
        rw [Table.lookup_upsert, if_neg hne]
        by_cases hkey : key = other
        · rw [if_pos hkey, if_pos hkey]
          rfl
        · rw [if_neg hkey, if_neg hkey]
          exact hwindows other

theorem alike_start : Alike memoryStart redisStart where
  now := rfl
  kept := ⟨nofun, nofun, nofun⟩
  windows _ := rfl
  calls _ := rfl

theorem alike_step {options : RateLimiterOptions} {s : MemoryState} {t : RedisState} (h : Alike s t)
    (event : LimiterEvent) :
    Alike (s.step memoryStore options event) (t.step redisStore options event) := by
  cases event with
  | consume id key =>
      have hid := h.calls id
      unfold LimiterState.step
      dsimp only
      cases hs : Table.lookup ConsumeCall.id id s.calls with
      | some call =>
          rw [hs] at hid
          obtain ⟨other, ht, -⟩ := Option.map_eq_some_iff.mp hid
          rw [ht]
          exact h
      | none =>
          rw [hs] at hid
          rw [Option.map_eq_none_iff.mp hid]
          obtain ⟨hcount, hwindows⟩ :=
            incrementWindow_alike h.kept h.windows s.now (options.storeKey key) options.windowMs
          refine ⟨h.now, wellKept_increment h.kept s.now (options.storeKey key) options.windowMs, ?_, fun other => ?_⟩
          · show ∀ key, (Table.lookup Expiring.Entry.key key (incrementWindow t.now _ _ t.store).1).map _ = _
            rw [h.now]
            exact hwindows
          · rw [Table.lookup_upsert, Table.lookup_upsert]
            by_cases hother : id = other
            · rw [if_pos hother, if_pos hother]
              have hnow := h.now
              generalize t.now = now at hnow ⊢
              subst hnow
              exact congrArg (fun counted => some (counted, false)) hcount
            · rw [if_neg hother, if_neg hother]
              exact h.calls other
  | decide id =>
      have hid := h.calls id
      unfold LimiterState.step
      dsimp only
      cases hs : Table.lookup ConsumeCall.id id s.calls with
      | none =>
          rw [hs] at hid
          rw [Option.map_eq_none_iff.mp hid]
          exact h
      | some call =>
          rw [hs] at hid
          obtain ⟨other, ht, heq⟩ := Option.map_eq_some_iff.mp hid
          obtain ⟨hcounted, hopen⟩ := Prod.mk.inj heq
          rw [ht]
          dsimp only
          cases hdecision : call.decision with
          | some decision =>
              rw [hdecision] at hopen
              obtain ⟨taken, htaken⟩ := Option.isSome_iff_exists.mp hopen
              rw [htaken]
              exact h
          | none =>
              rw [hdecision] at hopen
              rw [Option.isSome_eq_false_iff.mp hopen |> Option.isNone_iff_eq_none.mp]
              refine ⟨h.now, h.kept, h.windows, fun found => ?_⟩
              rw [Table.lookup_upsert, Table.lookup_upsert]
              have hkey := (Table.key_of_lookup ht).trans (Table.key_of_lookup hs).symm
              dsimp only
              rw [hkey]
              by_cases hfound : call.id = found
              · rw [if_pos hfound, if_pos hfound]
                exact congrArg (fun counted => some (counted, true)) hcounted
              · rw [if_neg hfound, if_neg hfound]
                exact h.calls found
  | wait milliseconds =>
      exact ⟨congrArg (· + milliseconds) h.now, h.kept, h.windows, h.calls⟩

/-- Against Redis a call decides on the count at its increment. -/
def Answered (options : RateLimiterOptions) (t : RedisState) : Prop :=
  ∀ call ∈ t.calls, call.result.current = call.counted ∧
    ∀ decision, call.decision = some decision → decision.allowed = decide (call.counted ≤ options.max)

theorem answered_step {options : RateLimiterOptions} {t : RedisState} (h : Answered options t)
    (event : LimiterEvent) : Answered options (t.step redisStore options event) := by
  cases event with
  | consume id key =>
      unfold LimiterState.step
      dsimp only
      split
      · exact h
      · intro call hcall
        rcases Table.mem_upsert hcall with rfl | hcall
        · exact ⟨rfl, nofun⟩
        · exact h call hcall
  | decide id =>
      unfold LimiterState.step
      dsimp only
      split
      · exact h
      · rename_i found hfound
        split
        · exact h
        · intro call hcall
          rcases Table.mem_upsert hcall with rfl | hcall
          · have hcounted := (h found (Table.mem_of_lookup hfound)).1
            refine ⟨hcounted, fun decision hdecision => ?_⟩
            cases hdecision
            show decide (found.result.current ≤ options.max) = _
            rw [hcounted]
          · exact h call hcall
  | wait milliseconds => exact h

end Redis

/-! ## Decisions -/

/-- Of the calls counted in the window as many are admitted as the limit lets, and each decides as it would against
Redis. -/
structure AdmitsLimit (options : RateLimiterOptions) (window : ℕ) (s : MemoryState) (t : RedisState) : Prop where
  exact : s.calls.countP (fun call => decide (call.result = window) && call.allowed) =
    min (s.calls.countP fun call => decide (call.result = window)) options.max
  same : ∀ call ∈ s.calls, call.result = window → ∃ other,
    Table.lookup ConsumeCall.id call.id t.calls = some other ∧ other.allowed = call.allowed

/-- Once all calls of a window of the memory store have decided, they are admitted up to the limit and as against
Redis exactly if none of them was waiting when the limit was passed. -/
theorem admitsLimit_iff {options : RateLimiterOptions} {events : List LimiterEvent} {window : ℕ}
    (hdecided : ∀ call ∈ (Machine.run (LimiterState.step memoryStore options) memoryStart events).calls,
      call.result = window → call.decision.isSome = true) :
    AdmitsLimit options window (Machine.run (LimiterState.step memoryStore options) memoryStart events)
        (Machine.run (LimiterState.step redisStore options) redisStart events) ↔
      Machine.Meets (LimiterState.step memoryStore options) (NoneWaits options window) memoryStart events := by
  have hstart : Settled options window memoryStart := nofun
  have hrun : Settled options window (Machine.run (LimiterState.step memoryStore options) memoryStart events) ↔
      Machine.Meets (LimiterState.step memoryStore options) (NoneWaits options window) memoryStart events :=
    (Machine.run_iff_of_exact (fun s event hs => numbered_step hs event)
      (fun s event hs => settled_step hs event) numbered_start).trans (and_iff_right hstart)
  have hnumbered : Numbered options window (Machine.run (LimiterState.step memoryStore options) memoryStart events) :=
    Machine.invariant (I := Numbered options window) (fun s event hs => numbered_step hs event) numbered_start events
  have hanswered : Answered options (Machine.run (LimiterState.step redisStore options) redisStart events) :=
    Machine.invariant (I := Answered options) (fun t event ht => answered_step ht event)
      (fun _ hcall => absurd hcall List.not_mem_nil) events
  have halike : Alike (Machine.run (LimiterState.step memoryStore options) memoryStart events)
      (Machine.run (LimiterState.step redisStore options) redisStart events) :=
    Machine.simulation (R := Alike) (fun s t event h => alike_step h event) alike_start events
  rw [← hrun]
  generalize Machine.run (LimiterState.step memoryStore options) memoryStart events = s at *
  generalize Machine.run (LimiterState.step redisStore options) redisStart events = t at *
  -- what the call with the id of a decided one answers against Redis
  have hother (call : ConsumeCall ℕ) (hcall : call ∈ s.calls) (hresult : call.result = window) :
      ∃ other, Table.lookup ConsumeCall.id call.id t.calls = some other ∧
        other.allowed = decide (call.counted ≤ options.max) := by
    have hid := halike.calls call.id
    rw [Table.lookup_of_mem hnumbered.distinct hcall] at hid
    obtain ⟨other, hlookup, heq⟩ := Option.map_eq_some_iff.mp hid
    obtain ⟨hcounted, hsome⟩ := Prod.mk.inj heq
    rw [hdecided call hcall hresult] at hsome
    obtain ⟨decision, hdecision⟩ := Option.isSome_iff_exists.mp hsome
    refine ⟨other, hlookup, ?_⟩
    have hallowed := (hanswered other (Table.mem_of_lookup hlookup)).2 decision hdecision
    unfold ConsumeCall.allowed
    rw [hdecision, Option.any_some, hallowed, hcounted]
  constructor
  · intro h
    refine (settled_iff hnumbered hdecided).mpr fun call hcall hresult decision hdecision => ?_
    obtain ⟨other, hlookup, hallowed⟩ := hother call hcall hresult
    obtain ⟨found, hfound, hsame⟩ := h.same call hcall hresult
    cases hlookup.symm.trans hfound
    rw [← hallowed, hsame]
    unfold ConsumeCall.allowed
    rw [hdecision, Option.any_some]
  · intro h
    refine ⟨allowed_of_settled hnumbered hdecided h, fun call hcall hresult => ?_⟩
    obtain ⟨other, hlookup, hallowed⟩ := hother call hcall hresult
    refine ⟨other, hlookup, ?_⟩
    obtain ⟨decision, hdecision⟩ := Option.isSome_iff_exists.mp (hdecided call hcall hresult)
    rw [hallowed, ← (settled_iff hnumbered hdecided).mp h call hcall hresult decision hdecision]
    unfold ConsumeCall.allowed
    rw [hdecision, Option.any_some]

def onePerMinute : RateLimiterOptions := { keyPrefix := "login", windowMs := 60000, max := 1 }

/-- The first call has decided when the second one is counted. -/
def inTurn : List LimiterEvent := [.consume 1 "ada", .decide 1, .consume 2 "ada", .decide 2]

theorem inTurn_admits : AdmitsLimit onePerMinute 0
    (Machine.run (LimiterState.step memoryStore onePerMinute) memoryStart inTurn)
    (Machine.run (LimiterState.step redisStore onePerMinute) redisStart inTurn) :=
  (admitsLimit_iff (by decide)).mpr ⟨by decide, by decide, by decide,
    by decide, trivial⟩

/-- Both are counted before either has decided: nobody is admitted. -/
def atOnce : List LimiterEvent := [.consume 1 "ada", .consume 2 "ada", .decide 1, .decide 2]

theorem atOnce_refused : ¬ AdmitsLimit onePerMinute 0
    (Machine.run (LimiterState.step memoryStore onePerMinute) memoryStart atOnce)
    (Machine.run (LimiterState.step redisStore onePerMinute) redisStart atOnce) :=
  fun h => absurd h.exact (by decide)

end DealFlow360.RateLimit
