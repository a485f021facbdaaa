import DealFlow360.Events.EventIds

/-!
# Dates

`Date` in UTC: a time in milliseconds since 1970, before or after, or no time
at all. The years are counted from March, in eras of 400 years.

The conversions are the ones of the days-from-civil scheme, in integers.
`dayOfYear_bounds` and `monthAndDay_bounds` bound what they answer, which is
what the fields of a cron expression are compared with; the printed form is the
ISO text, from which ids and buckets are cut. A time that is none, or beyond
the range, has no printed form.
-/

namespace DealFlow360

/-- The time of a `Date`, and none for an invalid one. -/
abbrev DateTime := Option ℤ

namespace Dates

open Events (Text decimal)

structure Civil where
  year : ℤ
  month : ℤ
  day : ℤ
  deriving DecidableEq, Repr

def msPerDay : ℤ := 86400000

/-- The date of a day, the day of 1970-01-01 being zero. -/
def civilOfDay (days : ℤ) : Civil :=
  let shifted := days + 719468
  let era := shifted / 146097
  let dayOfEra := shifted % 146097
  let yearOfEra := (dayOfEra - dayOfEra / 1460 + dayOfEra / 36524 - dayOfEra / 146096) / 365
  let dayOfYear := dayOfEra - (365 * yearOfEra + yearOfEra / 4 - yearOfEra / 100)
  let shiftedMonth := (5 * dayOfYear + 2) / 153
  let month := if shiftedMonth < 10 then shiftedMonth + 3 else shiftedMonth - 9
  { year := yearOfEra + era * 400 + if month ≤ 2 then 1 else 0
    month
    day := dayOfYear - (153 * shiftedMonth + 2) / 5 + 1 }

def dayOfCivil (date : Civil) : ℤ :=
  let year := if date.month ≤ 2 then date.year - 1 else date.year
  let yearOfEra := year % 400
  let dayOfYear := (153 * ((date.month + 9) % 12) + 2) / 5 + date.day - 1
  year / 400 * 146097 + (yearOfEra * 365 + yearOfEra / 4 - yearOfEra / 100 + dayOfYear) - 719468

/-- The times that a `Date` can hold. -/
def timeClip (time : ℤ) : DateTime := if |time| ≤ 8640000000000000 then some time else none

/-! ## Reading a date -/

def civil (time : ℤ) : Civil := civilOfDay (time / msPerDay)

def getUTCHours (time : ℤ) : ℤ := time % msPerDay / 3600000

def getUTCMinutes (time : ℤ) : ℤ := time / 60000 % 60

/-- The day of the week, Sunday being zero. -/
def getUTCDay (time : ℤ) : ℤ := (time / msPerDay + 4) % 7

/-- A day of an era of 400 years lies in the year that the formula answers. -/
theorem dayOfYear_bounds {dayOfEra year : ℤ} (h0 : 0 ≤ dayOfEra) (h1 : dayOfEra ≤ 146096)
    (hyear : year = (dayOfEra - dayOfEra / 1460 + dayOfEra / 36524 - dayOfEra / 146096) / 365) :
    0 ≤ dayOfEra - (365 * year + year / 4 - year / 100) ∧ dayOfEra - (365 * year + year / 4 - year / 100) ≤ 365 := by
  obtain ⟨c, r, hc0, hc3, hr0, hr1, he, hcentury⟩ : ∃ c r, 0 ≤ c ∧ c ≤ 3 ∧ 0 ≤ r ∧ r ≤ 36524 ∧
      dayOfEra = 36524 * c + r ∧ dayOfEra / 36524 - dayOfEra / 146096 = c := by
    rcases lt_or_ge dayOfEra 146096 with h | h
    · exact ⟨dayOfEra / 36524, dayOfEra % 36524, by omega, by omega, by omega, by omega, by omega, by omega⟩
    · exact ⟨3, 36524, by omega, by omega, by omega, by omega, by omega, by omega⟩
  obtain ⟨q, s, hq0, hq1, hs0, hs1, hr⟩ : ∃ q s, 0 ≤ q ∧ q ≤ 24 ∧ 0 ≤ s ∧ s ≤ 1460 ∧ r = 1461 * q + s :=
    ⟨r / 1461, r % 1461, by omega, by omega, by omega, by omega, by omega⟩
  -- four years are a day longer than 1460 days, which may count one cycle too many
  obtain ⟨l, hl0, hl1, hls, hfour, hdays⟩ : ∃ l, 0 ≤ l ∧ l ≤ 1 ∧ l ≤ s ∧ s - l ≤ 1459 ∧
      dayOfEra / 1460 = 25 * c + q + l := by
    refine ⟨(24 * c + q + s) / 1460, ?_, ?_, ?_, ?_, ?_⟩ <;> clear hcentury hyear <;> omega
  have hyears : year = 100 * c + 4 * q + (s - l) / 365 := by
    have hsum : dayOfEra - dayOfEra / 1460 + dayOfEra / 36524 - dayOfEra / 146096 =
        365 * (100 * c + 4 * q) + (s - l) := by omega
    rw [hyear, hsum]
    clear hsum hyear hcentury hdays he
    omega
  obtain ⟨t, ht0, ht3, hts, hts', ht⟩ : ∃ t, 0 ≤ t ∧ t ≤ 3 ∧ 365 * t ≤ s - l ∧ s - l ≤ 365 * t + 364 ∧
      (s - l) / 365 = t := by
    refine ⟨(s - l) / 365, ?_, ?_, ?_, ?_, rfl⟩ <;> clear hyears hcentury hdays hyear he <;> omega
  rw [ht] at hyears
  clear ht hyear hcentury hdays
  have hquarter : year / 4 = 25 * c + q := by omega
  have hcent : year / 100 = c := by omega
  rw [hquarter, hcent]
  omega

/-- The months from March on have 153 days in five. -/
theorem monthAndDay_bounds {dayOfYear : ℤ} (h : 0 ≤ dayOfYear ∧ dayOfYear ≤ 365) :
    let shiftedMonth := (5 * dayOfYear + 2) / 153
    let month := if shiftedMonth < 10 then shiftedMonth + 3 else shiftedMonth - 9
    let day := dayOfYear - (153 * shiftedMonth + 2) / 5 + 1
    (1 ≤ month ∧ month ≤ 12) ∧ 1 ≤ day ∧ day ≤ 31 := by
  dsimp only
  refine ⟨?_, ?_⟩
  · split <;> omega
  · omega

theorem civilOfDay_bounds (days : ℤ) : (1 ≤ (civilOfDay days).month ∧ (civilOfDay days).month ≤ 12) ∧
    1 ≤ (civilOfDay days).day ∧ (civilOfDay days).day ≤ 31 := by
  have hera : 0 ≤ (days + 719468) % 146097 ∧ (days + 719468) % 146097 ≤ 146096 := by omega
  exact monthAndDay_bounds (dayOfYear_bounds hera.1 hera.2 rfl)

theorem getUTCHours_bounds (time : ℤ) : 0 ≤ getUTCHours time ∧ getUTCHours time ≤ 23 := by
  unfold getUTCHours msPerDay
  omega

theorem getUTCMinutes_bounds (time : ℤ) : 0 ≤ getUTCMinutes time ∧ getUTCMinutes time ≤ 59 := by
  unfold getUTCMinutes
  omega

theorem getUTCDay_bounds (time : ℤ) : 0 ≤ getUTCDay time ∧ getUTCDay time ≤ 6 := by
  unfold getUTCDay
  omega

/-! ## Making a date -/

/-- `new Date(Date.UTC(..))` of a date and an hour, which takes the years 0 to 99 for those of the last century. -/
def utc (date : Civil) (hour : ℤ) : DateTime :=
  let year := if 0 ≤ date.year ∧ date.year ≤ 99 then 1900 + date.year else date.year
  timeClip (dayOfCivil { date with year } * msPerDay + hour * 3600000)

/-! ## Printing a date -/

def yearText (year : ℤ) : Text :=
  if 0 ≤ year ∧ year ≤ 9999 then decimal 4 year.toNat
  else (if year < 0 then '-'.toNat else '+'.toNat) :: decimal 6 year.natAbs

/-- `toISOString` of a valid date. -/
def toISOString (time : ℤ) : Text :=
  let date := civil time
  let ms := (time % msPerDay).toNat
  yearText date.year ++ '-'.toNat :: decimal 2 date.month.toNat ++ '-'.toNat :: decimal 2 date.day.toNat ++
    'T'.toNat :: decimal 2 (ms / 3600000) ++ ':'.toNat :: decimal 2 (ms / 60000 % 60) ++
    ':'.toNat :: decimal 2 (ms / 1000 % 60) ++ '.'.toNat :: decimal 3 (ms % 1000) ++ ['Z'.toNat]

example : toISOString (-62198755200000) = codeUnits "-000001-01-01T00:00:00.000Z" := by decide

end Dates

end DealFlow360
