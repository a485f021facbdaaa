import DealFlow360.Lib.Loops
import DealFlow360.Lib.Table
import DealFlow360.Notifications.NotificationService
import Mathlib.Data.List.TakeWhile

/-!
# Notification preferences

`updatePreferences` checks and writes the preferences of a request one after
the other. What refuses one of them comes after the writes before it, and those
stay: the request is all or nothing only where they change nothing.

The loop is `Guarded` in the sense of `Lib.Loops`: it goes through, or it stops
at an item it refuses with what the items before it wrote. What a list of items
leaves is a map from keys to flags in which the last occurrence counts
(`shouldStore_cons`), so writing the same again changes nothing.

- `allOrNothing_iff`: a request that fails leaves the preferences as they were
  exactly if the items before the refused one change nothing;
- `refused_after_writing`: one item is turned off, the next is refused.
-/

namespace DealFlow360.Notifications

open Program

/-! ## The service -/

structure PreferenceItem where
  category : Category
  channel : Channel
  enabled : Bool
  deriving DecidableEq, Repr

/-- The columns of the unique index. -/
def NotificationPreference.key (row : NotificationPreference) : Id × Category × Channel :=
  (row.userId, row.category, row.channel)

structure PreferenceTable where
  rows : List NotificationPreference
  distinct : Table.Distinct NotificationPreference.key rows

def PreferenceTable.upsert (table : PreferenceTable) (row : NotificationPreference) : PreferenceTable where
  rows := Table.upsert NotificationPreference.key row table.rows
  distinct := Table.distinct_upsert table.distinct row

inductive PreferenceError where
  | invalidBody
  | validation (message path detail : String)
  | database
  deriving DecidableEq, Repr

/-- Which accesses of a request the database refuses: the writes by the place of their item, and the read at the
end. -/
structure PreferenceFaults where
  write : ℕ → Bool
  read : Bool

def Category.text : Category → String
  | orderUpdates => "order_updates"
  | securityAlerts => "security_alerts"
  | reports => "reports"
  | marketing => "marketing"
  | system => "system"

def PreferenceItem.row (item : PreferenceItem) (userId : Id) : NotificationPreference :=
  { userId, category := item.category, channel := item.channel, enabled := item.enabled }

/-- `updateNotificationPreferencesBodySchema`. -/
def validBody (items : List PreferenceItem) : Bool := 1 ≤ items.length && items.length ≤ 40

def upsertPreference (fails : Bool) (row : NotificationPreference) : EStateM PreferenceError PreferenceTable PUnit := do
  throwIf (fails = true) .database
  write (·.upsert row)

/-- The body of the loop, for an item and its place. -/
def updatePreference (faults : PreferenceFaults) (userId : Id) (entry : PreferenceItem × ℕ) :
    EStateM PreferenceError PreferenceTable PUnit := do
  throwIf (isMandatoryCategory entry.1.category ∧ entry.1.enabled = false)
    (.validation "This notification category cannot be disabled" "preferences.category"
      (entry.1.category.text ++ " notifications are always delivered"))
  upsertPreference (faults.write entry.2) (entry.1.row userId)

/-- The stored preferences of a user; the constant lists of the answer and its order are left out. -/
def getPreferences (faults : PreferenceFaults) (userId : Id) :
    EStateM PreferenceError PreferenceTable (List PreferenceItem) := do
  throwIf (faults.read = true) .database
  Program.read fun table => (table.rows.filter (·.userId = userId)).map fun row =>
    { category := row.category, channel := row.channel, enabled := row.enabled }

def updatePreferences (faults : PreferenceFaults) (userId : Id) (items : List PreferenceItem) :
    EStateM PreferenceError PreferenceTable (List PreferenceItem) := do
  throwIf (validBody items = false) .invalidBody
  Loops.loop (updatePreference faults userId) items.zipIdx
  getPreferences faults userId

/-! ## What a list of items leaves behind -/

/-- The last value that a list has for a category on a channel. -/
def lastFor (items : List PreferenceItem) (category : Category) (channel : Channel) : Option Bool :=
  (items.reverse.find? fun item => item.category = category && item.channel = channel).map (·.enabled)

/-- The rows that should be stored after the items of a list: the user's with the last values, and those not named.
-/
def ShouldStore (userId : Id) (items : List PreferenceItem) (table : PreferenceTable) (row : NotificationPreference) :
    Prop :=
  if row.userId = userId then
    match lastFor items row.category row.channel with
    | some enabled => row.enabled = enabled
    | none => row ∈ table.rows
  else row ∈ table.rows

/-- A request that fails leaves the user's preferences, and one that returns has stored its list. -/
def AllOrNothing (faults : PreferenceFaults) (userId : Id) (items : List PreferenceItem) (table : PreferenceTable) :
    Prop :=
  match updatePreferences faults userId items table with
  | .error _ table' => ∀ row, row.userId = userId → (row ∈ table'.rows ↔ row ∈ table.rows)
  | .ok _ table' => ∀ row, row ∈ table'.rows ↔ ShouldStore userId items table row

theorem lastFor_cons (item : PreferenceItem) (items : List PreferenceItem) (category : Category) (channel : Channel) :
    lastFor (item :: items) category channel = (lastFor items category channel).or
      (if item.category = category ∧ item.channel = channel then some item.enabled else none) := by
  unfold lastFor
  rw [List.reverse_cons, List.find?_append]
  cases items.reverse.find? fun item => item.category = category && item.channel = channel with
  | some found => rfl
  | none =>
      by_cases hsame : item.category = category ∧ item.channel = channel
      · simp [hsame]
      · simp [hsame]

theorem shouldStore_cons (userId : Id) (item : PreferenceItem) (items : List PreferenceItem) (table : PreferenceTable)
    (row : NotificationPreference) : ShouldStore userId items (table.upsert (item.row userId)) row ↔
      ShouldStore userId (item :: items) table row := by
  have hmem : row ∈ (table.upsert (item.row userId)).rows ↔
      row = item.row userId ∨ row ∈ table.rows ∧ row.key ≠ (item.row userId).key := Table.mem_upsert_iff table.distinct
  obtain ⟨user, category, channel, enabled⟩ := row
  have hkey : (NotificationPreference.mk user category channel enabled).key = (item.row userId).key ↔
      user = userId ∧ item.category = category ∧ item.channel = channel := by
    simp [NotificationPreference.key, PreferenceItem.row, eq_comm]
  have hrow : NotificationPreference.mk user category channel enabled = item.row userId ↔
      (user = userId ∧ item.category = category ∧ item.channel = channel) ∧ enabled = item.enabled := by
    simp [PreferenceItem.row, eq_comm, and_assoc]
  unfold ShouldStore
  rw [lastFor_cons]
  dsimp only
  by_cases huser : user = userId
  · rw [if_pos huser, if_pos huser]
    cases lastFor items category channel with
    | some last => exact Iff.rfl
    | none =>
        rw [Option.none_or]
        dsimp only
        rw [hmem, hrow, ne_eq, hkey]
        by_cases hsame : item.category = category ∧ item.channel = channel
        · rw [if_pos hsame]
          simp [huser, hsame]
        · rw [if_neg hsame]
          simp only [huser, hsame, and_false, false_and, false_or, not_false_eq_true, and_true]
  · rw [if_neg huser, if_neg huser, hmem, hrow, ne_eq, hkey]
    simp [huser]

/-! ## The loop -/

/-- An item passes its check and its write succeeds. -/
def goesThrough (faults : PreferenceFaults) (entry : PreferenceItem × ℕ) : Bool :=
  !(isMandatoryCategory entry.1.category && !entry.1.enabled) && !faults.write entry.2

/-- The items before the first that is refused. -/
def passed (faults : PreferenceFaults) (items : List PreferenceItem) : List PreferenceItem :=
  (items.zipIdx.takeWhile (goesThrough faults)).map Prod.fst

/-- What some items would store is stored already. -/
def AlreadyStored (userId : Id) (items : List PreferenceItem) (table : PreferenceTable) : Prop :=
  ∀ category channel enabled, lastFor items category channel = some enabled →
    { userId, category, channel, enabled } ∈ table.rows

def writeEntry (userId : Id) (entry : PreferenceItem × ℕ) (table : PreferenceTable) : PreferenceTable :=
  table.upsert (entry.1.row userId)

theorem guarded_updatePreference (faults : PreferenceFaults) (userId : Id) :
    Loops.Guarded (fun _ => True) (updatePreference faults userId) (fun _ => goesThrough faults)
      (writeEntry userId) where
  accepted := by
    intro entry table _ h
    unfold goesThrough at h
    obtain ⟨hallowed, hwrite⟩ := Bool.and_eq_true_iff.mp h
    have hpermitted : ¬(isMandatoryCategory entry.1.category = true ∧ entry.1.enabled = false) := by
      rintro ⟨hmandatory, hoff⟩
      rw [hmandatory, hoff] at hallowed
      cases hallowed
    unfold updatePreference upsertPreference
    rw [throwIf_bind, if_neg hpermitted, throwIf_bind, if_neg (by simpa using hwrite)]
    rfl
  refused := by
    intro entry table _ h
    unfold updatePreference upsertPreference
    rw [throwIf_bind]
    split_ifs with hmandatory
    · exact ⟨_, rfl⟩
    · have hwrite : faults.write entry.2 = true := by
        unfold goesThrough at h
        rw [Bool.and_eq_false_iff] at h
        rcases h with h | h
        · exact absurd (by simpa using h) hmandatory
        · simpa using h
      rw [throwIf_bind, if_pos hwrite]
      exact ⟨_, rfl⟩
  keeps := fun _ _ => trivial

theorem mem_wrote (userId : Id) (entries : List (PreferenceItem × ℕ)) (table : PreferenceTable)
    (row : NotificationPreference) : row ∈ (Loops.wrote (writeEntry userId) entries table).rows ↔
      ShouldStore userId (entries.map Prod.fst) table row := by
  induction entries generalizing table with
  | nil =>
      show row ∈ table.rows ↔ _
      unfold ShouldStore
      rw [List.map_nil]
      exact (ite_self _).symm ▸ Iff.rfl
  | cons entry entries ih =>
      exact (ih (writeEntry userId entry table)).trans (shouldStore_cons userId entry.1 _ table row)

/-- The items leave the user's preferences alone exactly if they are stored already. -/
theorem shouldStore_same_iff (userId : Id) (items : List PreferenceItem) (table : PreferenceTable) :
    (∀ row, row.userId = userId → (ShouldStore userId items table row ↔ row ∈ table.rows)) ↔
      AlreadyStored userId items table := by
  unfold ShouldStore AlreadyStored
  constructor
  · intro h category channel enabled hlast
    refine (h { userId, category, channel, enabled } rfl).mp ?_
    rw [if_pos rfl, hlast]
  · intro h row huser
    obtain ⟨user, category, channel, enabled⟩ := row
    obtain rfl : user = userId := huser
    dsimp only
    rw [if_pos rfl]
    cases hlast : lastFor items category channel with
    | none => exact Iff.rfl
    | some last =>
        have hstored := h category channel last hlast
        dsimp only
        constructor
        · rintro rfl
          exact hstored
        · intro hrow
          have hfirst := Table.lookup_of_mem table.distinct hrow
          have hsecond := Table.lookup_of_mem table.distinct hstored
          exact congrArg NotificationPreference.enabled (Option.some.inj (hfirst.symm.trans hsecond))

/--
A request is all or nothing exactly if nothing refuses it after its first check, or what it stored before it was
refused was stored already.
-/
theorem allOrNothing_iff (faults : PreferenceFaults) (userId : Id) (items : List PreferenceItem)
    (table : PreferenceTable) : AllOrNothing faults userId items table ↔
      (validBody items = true → passed faults items ≠ items ∨ faults.read = true →
        AlreadyStored userId (passed faults items) table) := by
  have hguarded := guarded_updatePreference faults userId
  have htaken := hguarded.taken_eq_takeWhile (p := goesThrough faults) (fun _ => rfl) items.zipIdx (s := table) trivial
  have hall : items.zipIdx.takeWhile (goesThrough faults) = items.zipIdx ↔ passed faults items = items := by
    unfold passed
    constructor
    · intro h
      rw [h, List.zipIdx_map_fst]
    · intro h
      have hprefix := List.takeWhile_prefix (goesThrough faults) (l := items.zipIdx)
      refine hprefix.eq_of_length ?_
      have hlength := congrArg List.length h
      rw [List.length_map] at hlength
      rw [hlength, List.length_zipIdx]
  unfold AllOrNothing updatePreferences
  rw [throwIf_bind]
  cases hvalid : validBody items with
  | false =>
      rw [if_pos rfl]
      exact ⟨fun _ h => absurd h Bool.false_ne_true, fun _ _ _ => Iff.rfl⟩
  | true =>
      rw [if_neg (by decide), ← shouldStore_same_iff]
      rcases hguarded.run items.zipIdx table trivial with ⟨hrest, hrun⟩ | ⟨hrest, error, hrun⟩
      · rw [htaken] at hrest
        have hpassed := hall.mp hrest
        have hmem := mem_wrote userId items.zipIdx table
        rw [List.zipIdx_map_fst] at hmem
        rw [bind_of_ok hrun, hpassed]
        unfold getPreferences
        rw [throwIf_bind]
        cases hread : faults.read with
        | true =>
            rw [if_pos rfl]
            show (∀ row, row.userId = userId → (row ∈ PreferenceTable.rows _ ↔ _)) ↔ _
            simp [hmem]
        | false =>
            rw [if_neg Bool.false_ne_true]
            exact ⟨fun _ _ h => absurd h (by simp), fun _ => hmem⟩
      · rw [htaken] at hrest hrun
        have hpassed : passed faults items ≠ items := fun h => hrest (hall.mpr h)
        have hmem := mem_wrote userId (items.zipIdx.takeWhile (goesThrough faults)) table
        rw [bind_of_error hrun]
        show (∀ row, row.userId = userId → (row ∈ PreferenceTable.rows _ ↔ _)) ↔ _
        unfold passed at hpassed ⊢
        simp [hmem, hpassed]

/-- A refusal keeps what was turned off before it. -/
theorem refused_after_writing : ¬AllOrNothing { write := fun _ => false, read := false } 1
    [{ category := .marketing, channel := .email, enabled := false },
      { category := .securityAlerts, channel := .email, enabled := false }]
    { rows := [], distinct := List.nodup_nil } := by
  intro h
  have hstored := (h { userId := 1, category := .marketing, channel := .email, enabled := false } rfl).mp (by decide)
  cases hstored

end DealFlow360.Notifications
