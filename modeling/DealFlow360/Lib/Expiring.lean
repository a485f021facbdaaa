import DealFlow360.Lib.Table

/-!
# Key-value stores whose entries expire

An entry is written with the time from which it is gone, or with none. Reading
is at a time. What has been written under a key is read until it expires,
whatever is written under the other keys.

`set`, `setNx`, `del` and `get` are the operations; `get` takes the time of the
reading, so the passing of time is not an operation. `Lasts` says that a key is
read with some property up to a time, whatever other keys are written: it is
how a claim or a mark is followed through a run. What is read later could have
been read before (`get_of_later`), and a value is written by `setNx` only where
nothing was read.
-/

namespace Expiring

structure Entry (κ ν : Type*) where
  key : κ
  value : ν
  expiresAt : Option ℕ := none
  deriving DecidableEq, Repr

variable {κ ν : Type*} [DecidableEq κ]

/-- Not expired yet. -/
def Entry.live (now : ℕ) (entry : Entry κ ν) : Bool :=
  entry.expiresAt.all fun expiresAt => decide (now < expiresAt)

def get (now : ℕ) (key : κ) (entries : List (Entry κ ν)) : Option ν :=
  ((Table.lookup Entry.key key entries).filter (Entry.live now)).map Entry.value

/-- A lifetime of zero is none. -/
def set (now : ℕ) (key : κ) (value : ν) (ttl : ℕ) (entries : List (Entry κ ν)) : List (Entry κ ν) :=
  Table.upsert Entry.key { key, value, expiresAt := if 0 < ttl then some (now + ttl) else none } entries

/-- Written only where nothing is read; the answer is whether it was. -/
def setNx (now : ℕ) (key : κ) (value : ν) (ttl : ℕ) (entries : List (Entry κ ν)) :
    Bool × List (Entry κ ν) :=
  if (get now key entries).isSome then (false, entries) else (true, set now key value ttl entries)

def del (key : κ) (entries : List (Entry κ ν)) : List (Entry κ ν) :=
  Table.erase Entry.key key entries

variable {entries : List (Entry κ ν)} {key other : κ} {value : ν} {now later ttl deadline : ℕ}

theorem get_set_self (hlive : later < now + ttl) :
    get later key (set now key value ttl entries) = some value := by
  let entry : Entry κ ν := { key, value, expiresAt := if 0 < ttl then some (now + ttl) else none }
  have hfound : Table.lookup Entry.key entry.key (Table.upsert Entry.key entry entries) = some entry :=
    Table.lookup_upsert_self entry entries
  have hentry : entry.live later = true := by
    show (if 0 < ttl then some (now + ttl) else none).all _ = true
    split
    · exact decide_eq_true hlive
    · rfl
  show ((Table.lookup Entry.key entry.key (Table.upsert Entry.key entry entries)).filter _).map _ = _
  rw [hfound, Option.filter_some, if_pos hentry]
  rfl

theorem get_set_expired (httl : 0 < ttl) (hexpired : now + ttl ≤ later) :
    get later key (set now key value ttl entries) = none := by
  let entry : Entry κ ν := { key, value, expiresAt := if 0 < ttl then some (now + ttl) else none }
  have hfound : Table.lookup Entry.key entry.key (Table.upsert Entry.key entry entries) = some entry :=
    Table.lookup_upsert_self entry entries
  have hentry : ¬entry.live later = true := by
    show ¬(if 0 < ttl then some (now + ttl) else none).all _ = true
    rw [if_pos httl, Option.all_some, decide_eq_true_eq]
    exact hexpired.not_gt
  show ((Table.lookup Entry.key entry.key (Table.upsert Entry.key entry entries)).filter _).map _ = _
  rw [hfound, Option.filter_some, if_neg hentry]
  rfl

theorem get_set_of_ne (hne : key ≠ other) :
    get later other (set now key value ttl entries) = get later other entries := by
  unfold get set
  rw [Table.lookup_upsert_of_ne hne]

theorem get_del_self : get now key (del key entries) = none := by
  unfold get del
  rw [Table.lookup_erase, if_pos rfl]
  rfl

theorem get_del_of_ne (hne : key ≠ other) : get now other (del key entries) = get now other entries := by
  unfold get del
  rw [Table.lookup_erase, if_neg hne]

/-- A value is written only where nothing was read. -/
theorem get_of_setNx (h : (setNx now key value ttl entries).1 = true) : get now key entries = none := by
  unfold setNx at h
  split at h
  · cases h
  · rename_i hnone
    exact Option.not_isSome_iff_eq_none.mp hnone

/-- What is read later could be read before. -/
theorem get_of_later (hle : now ≤ later) (h : get later key entries = some value) :
    get now key entries = some value := by
  obtain ⟨entry, hentry, hvalue⟩ := Option.map_eq_some_iff.mp h
  obtain ⟨hfound, hlive⟩ := Option.filter_eq_some_iff.mp hentry
  refine Option.map_eq_some_iff.mpr ⟨entry, Option.filter_eq_some_iff.mpr ⟨hfound, ?_⟩, hvalue⟩
  unfold Entry.live at hlive ⊢
  cases hexpires : entry.expiresAt with
  | none => rfl
  | some expiresAt =>
      rw [hexpires] at hlive
      exact decide_eq_true (hle.trans_lt (of_decide_eq_true hlive))

/-! ## Before anything expires -/

/-- Until the deadline it does not matter when the key is read. -/
def Steady (now deadline : ℕ) (key : κ) (entries : List (Entry κ ν)) : Prop :=
  ∀ later, now ≤ later → later < deadline → get later key entries = get now key entries

theorem steady_of_get_eq_none (h : get now key entries = none) : Steady now deadline key entries := by
  intro later hle _
  rw [h]
  cases hlater : get later key entries with
  | none => rfl
  | some value => exact nomatch h.symm.trans (get_of_later hle hlater)

theorem steady_set_self (hdeadline : deadline ≤ now + ttl) :
    Steady now deadline key (set now key value ttl entries) := by
  intro later hle hlater
  rw [get_set_self (hlater.trans_le hdeadline),
    get_set_self ((hle.trans_lt hlater).trans_le hdeadline)]

theorem steady_set_of_ne (hne : key ≠ other) (h : Steady now deadline other entries) :
    Steady now deadline other (set now key value ttl entries) := by
  intro later hle hlater
  rw [get_set_of_ne hne, get_set_of_ne hne]
  exact h later hle hlater

theorem steady_del (h : Steady now deadline other entries) : Steady now deadline other (del key entries) := by
  intro later hle hlater
  by_cases hne : key = other
  · rw [hne, get_del_self, get_del_self]
  · rw [get_del_of_ne hne, get_del_of_ne hne]
    exact h later hle hlater

theorem Steady.of_le (h : Steady now deadline key entries) (hle : now ≤ later) (hlater : later < deadline) :
    Steady later deadline key entries := by
  intro last hlast hdeadline
  rw [h last (hle.trans hlast) hdeadline, h later hle hlater]

/-! ## Lasting values -/

/-- Until the deadline, a value that meets `P` is read under the key. -/
def Lasts (entries : List (Entry κ ν)) (key : κ) (P : ν → Prop) (deadline : ℕ) : Prop :=
  ∀ now < deadline, ∃ value, get now key entries = some value ∧ P value

theorem lasts_set_self {P : ν → Prop} (hvalue : P value) (hdeadline : deadline ≤ now + ttl) :
    Lasts (set now key value ttl entries) key P deadline :=
  fun _ hlt => ⟨value, get_set_self (hlt.trans_le hdeadline), hvalue⟩

theorem lasts_set_of_ne {P : ν → Prop} (hne : key ≠ other) (h : Lasts entries other P deadline) :
    Lasts (set now key value ttl entries) other P deadline := by
  intro later hlt
  rw [get_set_of_ne hne]
  exact h later hlt

end Expiring
