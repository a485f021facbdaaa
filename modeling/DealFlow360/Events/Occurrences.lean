import DealFlow360.Events.EventIds
import DealFlow360.Realtime.CrossProcess
import Mathlib.Data.List.Chain

/-!
# Ids of distinct occurrences

An id is cut off, so what tells two occurrences apart has to come early. Slots
of one schedule have the same id where their times agree as far as the name
leaves room for them, and automation events where the first 48 code units of
their payloads do, up to characters that are replaced. Different triggers keep
ids apart, unless one is far longer than any trigger of a rule.

The proof peels an id from the front: the type, the colon, the key. Types and
keys are of different characters, so an id determines its type unless it was
cut in it (`triggers_apart`, `tickId_triggers`).

- `tickId_ne_iff`: two slots of a schedule;
- `emitEventId_ne_iff`: two payloads of one trigger;
- `tickId_ne_emitEventId`: a slot and a payload;
- `duplicate_iff`: the engine treats an event as a duplicate exactly where its
  id is already there for the rule;
- `ids_distinct_iff`: all together, for every scheduler and the triggers rules
  can have.
-/

namespace DealFlow360.Events

open Scheduler Automation

/-! ## Safe texts -/

section Texts

theorem isSafe_iff {unit : ℕ} : isSafe unit = true ↔
    97 ≤ unit ∧ unit ≤ 122 ∨ 65 ≤ unit ∧ unit ≤ 90 ∨ 48 ≤ unit ∧ unit ≤ 57 ∨ unit = 46 ∨ unit = 95 ∨
      unit = 58 ∨ unit = 45 := by
  unfold isSafe
  have hcodes : 'a'.toNat = 97 ∧ 'z'.toNat = 122 ∧ 'A'.toNat = 65 ∧ 'Z'.toNat = 90 ∧ '0'.toNat = 48 ∧
      '9'.toNat = 57 ∧ '.'.toNat = 46 ∧ '_'.toNat = 95 ∧ ':'.toNat = 58 ∧ '-'.toNat = 45 := by decide
  obtain ⟨ha, hz, hA, hZ, h0, h9, hdot, hlow, hcolon, hdash⟩ := hcodes
  rw [ha, hz, hA, hZ, h0, h9, hdot, hlow, hcolon, hdash]
  simp only [Bool.or_eq_true, Bool.and_eq_true, decide_eq_true_eq]
  omega

theorem isSpaceUnit_iff {unit : ℕ} : isSpaceUnit unit = true ↔
    (9 ≤ unit ∧ unit ≤ 13 ∨ unit = 32 ∨ unit = 160 ∨ unit = 5760 ∨ unit = 8232 ∨ unit = 8233 ∨ unit = 8239 ∨
      unit = 8287 ∨ unit = 12288 ∨ unit = 65279) ∨ 8192 ≤ unit ∧ unit ≤ 8202 := by
  unfold isSpaceUnit
  simp only [List.mem_cons, List.not_mem_nil, or_false, Bool.or_eq_true, decide_eq_true_eq]
  omega

theorem not_space_of_safe {unit : ℕ} (h : isSafe unit = true) : isSpaceUnit unit = false := by
  rw [isSafe_iff] at h
  rw [Bool.eq_false_iff, ne_eq, isSpaceUnit_iff]
  omega

theorem isSafe_safeUnit (unit : ℕ) : isSafe (safeUnit unit) = true := by
  unfold safeUnit
  split
  · assumption
  · decide

theorem safeUnit_of_safe {unit : ℕ} (h : isSafe unit = true) : safeUnit unit = unit := if_pos h

theorem map_safeUnit {text : Text} (h : ∀ unit ∈ text, isSafe unit = true) : text.map safeUnit = text :=
  (List.map_congr_left fun unit hunit => safeUnit_of_safe (h unit hunit)).trans (List.map_id text)

/-- A text that neither begins nor ends with a blank is its own trimmed text. -/
theorem trimText_eq_self {first : ℕ} {rest last : Text} (hfirst : isSpaceUnit first = false) (hlast : last ≠ [])
    (hsafe : ∀ unit ∈ last, isSafe unit = true) : trimText (first :: rest ++ last) = first :: rest ++ last := by
  unfold trimText
  have hfront : (first :: rest ++ last).dropWhile isSpaceUnit = first :: rest ++ last := by
    rw [List.cons_append, List.dropWhile_cons, hfirst]
    rfl
  rw [hfront, List.rdropWhile_eq_self_iff]
  intro hne
  rw [List.getLast_append_of_ne_nil _ hlast]
  have hunit := not_space_of_safe (hsafe _ (List.getLast_mem hlast))
  rw [hunit]
  exact Bool.false_ne_true

theorem trimText_ne_nil {first : ℕ} {rest : Text} (hfirst : isSpaceUnit first = false) :
    trimText (first :: rest) ≠ [] := by
  unfold trimText
  rw [List.dropWhile_cons, hfirst, if_neg Bool.false_ne_true, ne_eq, List.rdropWhile_eq_nil_iff]
  intro hall
  have hspace := hall first List.mem_cons_self
  rw [hfirst] at hspace
  cases hspace

end Texts

/-! ## Ids -/

/-- How many code units of a key are kept behind a type. -/
def keptOfKey (type : Text) : ℕ := min 80 (127 - type.length)

section Ids

variable {first : ℕ} {rest key : Text} {uuid : Text}

theorem emittedId_eq {first : ℕ} {rest : Text} (hfirst : isSpaceUnit first = false) (uuid : Text) :
    emittedId (first :: rest) uuid = trimText (first :: rest) :=
  if_neg (trimText_ne_nil hfirst)

/-- Behind a type that leaves room for the colon, the first units of the key are kept. -/
theorem emittedId_short (hfirst : isSpaceUnit first = false) (hshort : (first :: rest).length ≤ 127) (key uuid : Text) :
    emittedId (eventIdFor (first :: rest) key) uuid =
      first :: rest ++ ':'.toNat :: (key.map safeUnit).take (keptOfKey (first :: rest)) := by
  have hcut : eventIdFor (first :: rest) key =
      first :: rest ++ ':'.toNat :: (key.map safeUnit).take (keptOfKey (first :: rest)) := by
    obtain ⟨room, hroom⟩ : ∃ room, 128 - (first :: rest).length = room + 1 := ⟨127 - (first :: rest).length, by omega⟩
    have hroom' : 127 - (first :: rest).length = room := by omega
    unfold eventIdFor keptOfKey
    dsimp only
    rw [List.take_append, List.take_of_length_le (by omega), hroom, List.take_succ_cons, List.take_take, hroom',
      Nat.min_comm]
  rw [hcut]
  refine (emittedId_eq hfirst uuid).trans (trimText_eq_self hfirst (List.cons_ne_nil _ _) fun unit hunit => ?_)
  rcases List.mem_cons.mp hunit with rfl | hunit
  · decide
  · obtain ⟨before, -, rfl⟩ := List.mem_map.mp (List.mem_of_mem_take hunit)
    exact isSafe_safeUnit before

/-- Behind a type that leaves no room, no key is kept. -/
theorem eventIdFor_long {type : Text} (hlong : 128 ≤ type.length) (key : Text) :
    eventIdFor type key = type.take 128 := by
  unfold eventIdFor
  dsimp only
  rw [List.take_append, Nat.sub_eq_zero_of_le hlong, List.take_zero, List.append_nil]

/-- The ids of two keys behind one type are the same if and only if the units that are kept are. -/
theorem emittedId_eq_iff (hfirst : isSpaceUnit first = false) (key key' uuid uuid' : Text) :
    emittedId (eventIdFor (first :: rest) key) uuid = emittedId (eventIdFor (first :: rest) key') uuid' ↔
      (key.map safeUnit).take (keptOfKey (first :: rest)) = (key'.map safeUnit).take (keptOfKey (first :: rest)) := by
  by_cases hshort : (first :: rest).length ≤ 127
  · rw [emittedId_short hfirst hshort, emittedId_short hfirst hshort, List.append_cancel_left_eq, List.cons.injEq,
      and_iff_right rfl]
  · have hlong : 128 ≤ (first :: rest).length := by omega
    have hnone : keptOfKey (first :: rest) = 0 := by
      unfold keptOfKey
      omega
    rw [eventIdFor_long hlong, eventIdFor_long hlong, hnone, List.take_zero, List.take_zero]
    refine iff_of_true ?_ rfl
    rw [List.take_succ_cons, emittedId_eq hfirst, emittedId_eq hfirst]

end Ids

/-! ## Code units -/

section Units

theorem codeUnits_eq_map {s : String} (h : ∀ c ∈ s.toList, c.toNat < 0x10000) :
    codeUnits s = s.toList.map Char.toNat := by
  unfold codeUnits
  rw [List.map_eq_flatMap]
  refine List.flatMap_congr fun c hc => ?_
  exact if_pos (h c hc)

/-- What encodes a character determines it, and ends where its successors begin. -/
theorem units_append_inj {c c' : Char} {rest rest' : Text}
    (h : codeUnits.units c ++ rest = codeUnits.units c' ++ rest') : c = c' ∧ rest = rest' := by
  -- A character is no surrogate.
  have hvalid : ∀ c : Char, c.toNat < 0xD800 ∨ 0xDFFF < c.toNat := by
    intro c
    rcases c.valid with hlow | ⟨hhigh, -⟩
    · exact .inl hlow
    · exact .inr hhigh
  have hmax : ∀ c : Char, c.toNat < 0x110000 := by
    intro c
    rcases c.valid with hlow | ⟨-, hhigh⟩
    · exact lt_trans hlow (by decide)
    · exact hhigh
  unfold codeUnits.units at h
  split at h <;> split at h
  · rw [List.singleton_append, List.singleton_append, List.cons.injEq] at h
    exact ⟨Char.toNat_inj.mp h.1, h.2⟩
  · rw [List.singleton_append, List.cons_append, List.cons.injEq] at h
    have hc := hvalid c
    have hc' := hmax c'
    omega
  · rw [List.singleton_append, List.cons_append, List.cons.injEq] at h
    have hc := hmax c
    have hc' := hvalid c'
    omega
  · simp only [List.cons_append, List.nil_append, List.cons.injEq] at h
    refine ⟨Char.toNat_inj.mp ?_, h.2.2⟩
    omega

theorem codeUnits_injective {s s' : String} (h : codeUnits s = codeUnits s') : s = s' := by
  rw [← String.toList_inj]
  unfold codeUnits at h
  generalize s.toList = chars at h ⊢
  generalize s'.toList = chars' at h ⊢
  have hne (c : Char) : codeUnits.units c ≠ [] := by
    unfold codeUnits.units
    split <;> exact List.cons_ne_nil _ _
  induction chars generalizing chars' with
  | nil =>
      cases chars' with
      | nil => rfl
      | cons c' rest' =>
          rw [List.flatMap_nil, List.flatMap_cons, eq_comm, List.append_eq_nil_iff] at h
          exact absurd h.1 (hne c')
  | cons c rest ih =>
      cases chars' with
      | nil =>
          rw [List.flatMap_nil, List.flatMap_cons, List.append_eq_nil_iff] at h
          exact absurd h.1 (hne c)
      | cons c' rest' =>
          rw [List.flatMap_cons, List.flatMap_cons] at h
          obtain ⟨rfl, hrest⟩ := units_append_inj h
          rw [ih rest' hrest]

/-- A trimmed text that is not empty begins with a character that is no blank. -/
theorem codeUnits_trim {s : String} (h : trim s ≠ "") :
    ∃ first rest, codeUnits (trim s) = first :: rest ∧ isSpaceUnit first = false := by
  have hlist : (trim s).toList = (s.toList.dropWhile trim.isSpace).rdropWhile trim.isSpace := String.toList_ofList
  cases hchars : (trim s).toList with
  | nil =>
      refine absurd ?_ h
      rw [← String.toList_inj, hchars]
      rfl
  | cons c rest =>
      have hspace : trim.isSpace c = false := by
        rw [hlist] at hchars
        have hprefix := List.rdropWhile_prefix trim.isSpace (s.toList.dropWhile trim.isSpace)
        rw [hchars] at hprefix
        obtain ⟨tail, htail⟩ := hprefix
        have hfirst := List.dropWhile_get_zero_not trim.isSpace s.toList (by rw [← htail]; exact Nat.succ_pos _)
        simp only [← htail, List.cons_append, List.get_eq_getElem, List.getElem_cons_zero] at hfirst
        exact Bool.eq_false_iff.mpr hfirst
      have hunits : codeUnits (trim s) = codeUnits.units c ++ rest.flatMap codeUnits.units := by
        unfold codeUnits
        rw [hchars, List.flatMap_cons]
      rw [hunits]
      unfold codeUnits.units
      split
      · exact ⟨c.toNat, _, rfl, hspace⟩
      · rename_i hastral
        refine ⟨_, _, rfl, ?_⟩
        have hsmall : (c.toNat - 0x10000) / 0x400 < 0x400 := by
          rcases c.valid with hlow | ⟨-, hhigh⟩
          · exact absurd (lt_trans hlow (by decide : (0xD800 : ℕ) < 0x10000)) hastral
          · have hmax : c.toNat < 0x110000 := hhigh
            omega
        rw [Bool.eq_false_iff, ne_eq, isSpaceUnit_iff]
        omega

end Units

/-! ## Keys of slots -/

def isDigitUnit (unit : ℕ) : Prop := 48 ≤ unit ∧ unit ≤ 57

def isLetterUnit (unit : ℕ) : Prop := 97 ≤ unit ∧ unit ≤ 122 ∨ 65 ≤ unit ∧ unit ≤ 90

section Keys

theorem isSafe_of_digit {unit : ℕ} (h : isDigitUnit unit) : isSafe unit = true :=
  isSafe_iff.mpr (.inr (.inr (.inl h)))

theorem digit_of_mem_decimal {width n unit : ℕ} (h : unit ∈ decimal width n) : isDigitUnit unit := by
  obtain ⟨place, -, rfl⟩ := List.mem_map.mp h
  have hzero : '0'.toNat = 48 := rfl
  have hdigit : n / 10 ^ place % 10 < 10 := Nat.mod_lt _ (by decide)
  rw [hzero]
  unfold isDigitUnit
  omega

theorem decimal_succ (width n : ℕ) : ∃ first rest, decimal (width + 1) n = first :: rest ∧ isDigitUnit first := by
  cases hdecimal : decimal (width + 1) n with
  | nil =>
      have hlength := congrArg List.length hdecimal
      unfold decimal at hlength
      rw [List.length_map, List.length_reverse, List.length_range] at hlength
      cases hlength
  | cons first rest =>
      have hmem : first ∈ decimal (width + 1) n := by
        rw [hdecimal]
        exact List.mem_cons_self
      exact ⟨first, rest, rfl, digit_of_mem_decimal hmem⟩

/-- No letter stands behind a colon. -/
abbrev ColonThenNoLetter (unit next : ℕ) : Prop := unit = 58 → ¬ isLetterUnit next

theorem decimal_two (n : ℕ) : ∃ a b, decimal 2 n = [a, b] ∧ isDigitUnit a ∧ isDigitUnit b := by
  have hdigit : ∀ unit ∈ decimal 2 n, isDigitUnit unit := fun _ => digit_of_mem_decimal
  exact ⟨_, _, rfl, hdigit _ List.mem_cons_self, hdigit _ (List.mem_cons_of_mem _ List.mem_cons_self)⟩

theorem decimal_three (n : ℕ) : ∃ a b c, decimal 3 n = [a, b, c] ∧ isDigitUnit a ∧ isDigitUnit b ∧ isDigitUnit c := by
  have hdigit : ∀ unit ∈ decimal 3 n, isDigitUnit unit := fun _ => digit_of_mem_decimal
  exact ⟨_, _, _, rfl, hdigit _ List.mem_cons_self, hdigit _ (List.mem_cons_of_mem _ List.mem_cons_self),
    hdigit _ (List.mem_cons_of_mem _ (List.mem_cons_of_mem _ List.mem_cons_self))⟩

/-- What follows the year is safe, has no letter behind a colon, and begins with a dash. -/
theorem afterYear_shape (time : Timestamp) : (∀ unit ∈ afterYear time, isSafe unit = true) ∧
    (afterYear time).IsChain ColonThenNoLetter ∧ ∃ rest, afterYear time = 45 :: rest := by
  obtain ⟨a, b, hmonth, ha, hb⟩ := decimal_two (calendarDate (time / 86400000)).month
  obtain ⟨c, d, hday, hc, hd⟩ := decimal_two (calendarDate (time / 86400000)).day
  obtain ⟨e, f, hhour, he, hf⟩ := decimal_two (time % 86400000 / 3600000)
  obtain ⟨g, i, hminute, hg, hi⟩ := decimal_two (time % 86400000 / 60000 % 60)
  obtain ⟨j, k, hsecond, hj, hk⟩ := decimal_two (time % 86400000 / 1000 % 60)
  obtain ⟨l, m, n, hmilli, hl, hm, hn⟩ := decimal_three (time % 86400000 % 1000)
  have htext : afterYear time =
      [45, a, b, 45, c, d, 84, e, f, 58, g, i, 58, j, k, 46, l, m, n, 90] := by
    unfold afterYear
    dsimp only
    rw [hmonth, hday, hhour, hminute, hsecond, hmilli]
    rfl
  rw [htext]
  refine ⟨?_, ?_, _, rfl⟩
  · have hdash : isSafe 45 = true := by decide
    have hcolon : isSafe 58 = true := by decide
    simp only [List.forall_mem_cons]
    exact ⟨hdash, isSafe_of_digit ha, isSafe_of_digit hb, hdash, isSafe_of_digit hc, isSafe_of_digit hd, by decide,
      isSafe_of_digit he, isSafe_of_digit hf, hcolon, isSafe_of_digit hg, isSafe_of_digit hi, hcolon,
      isSafe_of_digit hj, isSafe_of_digit hk, by decide, isSafe_of_digit hl, isSafe_of_digit hm,
      isSafe_of_digit hn, by decide, List.forall_mem_nil _⟩
  · unfold isDigitUnit at *
    simp only [List.isChain_cons_cons, List.IsChain.singleton, and_true, ColonThenNoLetter, isLetterUnit]
    omega

theorem chain_append {text rest : Text} (htext : ∀ unit ∈ text, unit ≠ 58) (hrest : rest.IsChain ColonThenNoLetter) :
    (text ++ rest).IsChain ColonThenNoLetter := by
  rw [List.isChain_append]
  refine ⟨?_, hrest, fun last hlast next _ hcolon => absurd hcolon (htext last (List.mem_of_mem_getLast? hlast))⟩
  clear hrest
  induction text with
  | nil => exact .nil
  | cons unit text ih =>
      have htail := ih fun other hother => htext other (List.mem_cons_of_mem _ hother)
      cases text with
      | nil => exact .singleton _
      | cons next text =>
          exact List.isChain_cons_cons.mpr ⟨fun hcolon => absurd hcolon (htext unit List.mem_cons_self), htail⟩

/-- A time begins with a digit, or with a plus sign, which alone is replaced in it. -/
theorem toISOString_shape (time : Timestamp) : ∃ first rest, toISOString time = first :: rest ∧
    (isDigitUnit first ∨ first = 43) ∧ (∀ unit ∈ rest, isSafe unit = true) ∧
      ((toISOString time).map safeUnit).IsChain ColonThenNoLetter := by
  obtain ⟨hsafe, hchain, -⟩ := afterYear_shape time
  have hdigits (width n : ℕ) : ∀ unit ∈ decimal width n, isSafe unit = true := fun unit hunit =>
    isSafe_of_digit (digit_of_mem_decimal hunit)
  have hyear (unit : ℕ) (hunit : unit ∈ (yearText (calendarDate (time / 86400000)).year).map safeUnit) : unit ≠ 58 := by
    obtain ⟨before, hbefore, rfl⟩ := List.mem_map.mp hunit
    have hdigit : isDigitUnit before ∨ before = 43 := by
      unfold yearText at hbefore
      split at hbefore
      · exact .inl (digit_of_mem_decimal hbefore)
      · rcases List.mem_cons.mp hbefore with rfl | hbefore
        · exact .inr rfl
        · exact .inl (digit_of_mem_decimal hbefore)
    rcases hdigit with hdigit | rfl
    · rw [safeUnit_of_safe (isSafe_of_digit hdigit)]
      unfold isDigitUnit at hdigit
      omega
    · decide
  have hwhole : ((toISOString time).map safeUnit).IsChain ColonThenNoLetter := by
    unfold toISOString
    rw [List.map_append, map_safeUnit hsafe]
    exact chain_append hyear hchain
  unfold toISOString at hwhole ⊢
  unfold yearText at hwhole ⊢
  split
  · obtain ⟨first, rest, hdecimal, hfirst⟩ := decimal_succ 3 (calendarDate (time / 86400000)).year
    rename_i hshort
    rw [if_pos hshort] at hwhole
    have hrest := hdigits 4 (calendarDate (time / 86400000)).year
    rw [hdecimal] at hwhole hrest ⊢
    refine ⟨first, rest ++ afterYear time, rfl, .inl hfirst, fun unit hunit => ?_, hwhole⟩
    rcases List.mem_append.mp hunit with hunit | hunit
    · exact hrest unit (List.mem_cons_of_mem _ hunit)
    · exact hsafe unit hunit
  · rename_i hlong
    rw [if_neg hlong] at hwhole
    refine ⟨43, decimal 6 (calendarDate (time / 86400000)).year ++ afterYear time, rfl, .inr rfl, fun unit hunit => ?_,
      hwhole⟩
    rcases List.mem_append.mp hunit with hunit | hunit
    · exact hdigits 6 _ unit hunit
    · exact hsafe unit hunit

/-- Nothing that tells two times apart is replaced. -/
theorem take_map_time_iff (time time' : Timestamp) (n : ℕ) :
    ((toISOString time).map safeUnit).take n = ((toISOString time').map safeUnit).take n ↔
      (toISOString time).take n = (toISOString time').take n := by
  obtain ⟨first, rest, htime, hfirst, hrest, -⟩ := toISOString_shape time
  obtain ⟨first', rest', htime', hfirst', hrest', -⟩ := toISOString_shape time'
  have hinjective : safeUnit first = safeUnit first' ↔ first = first' := by
    refine ⟨fun h => ?_, congrArg safeUnit⟩
    have hplus : safeUnit 43 = 45 := by decide
    rcases hfirst with hdigit | rfl <;> rcases hfirst' with hdigit' | rfl
    · rwa [safeUnit_of_safe (isSafe_of_digit hdigit), safeUnit_of_safe (isSafe_of_digit hdigit')] at h
    · rw [safeUnit_of_safe (isSafe_of_digit hdigit), hplus] at h
      unfold isDigitUnit at hdigit
      omega
    · rw [safeUnit_of_safe (isSafe_of_digit hdigit'), hplus] at h
      unfold isDigitUnit at hdigit'
      omega
    · rfl
  rw [htime, htime', List.map_cons, List.map_cons, map_safeUnit hrest, map_safeUnit hrest']
  cases n with
  | zero => exact Iff.rfl
  | succ n =>
      rw [List.take_succ_cons, List.take_succ_cons, List.take_succ_cons, List.take_succ_cons, List.cons.injEq,
        List.cons.injEq, hinjective]

/-- What a name looks like in code units. -/
structure IsNameText (units : Text) : Prop where
  letter : ∃ first rest, units = first :: rest ∧ isLetterUnit first
  safe : ∀ unit ∈ units, isSafe unit = true
  colonless : ∀ unit ∈ units, unit ≠ 58
  bounded : units.length ≤ 64

theorem isNameText_of_chars {name : String} {first : Char} {rest : List Char} (hchars : name.toList = first :: rest)
    (hfirst : isLetterUnit first.toNat) (hunit : ∀ c ∈ name.toList, isSafe c.toNat = true ∧ c.toNat ≠ 58)
    (hlength : rest.length ≤ 63) : IsNameText (codeUnits name) ∧ (codeUnits name).length = name.length := by
  have hsmall : ∀ c ∈ name.toList, c.toNat < 0x10000 := by
    intro c hc
    have hsafe := isSafe_iff.mp (hunit c hc).1
    omega
  have hunits := codeUnits_eq_map hsmall
  refine ⟨⟨?_, ?_, ?_, ?_⟩, ?_⟩
  · rw [hunits, hchars]
    exact ⟨_, _, rfl, hfirst⟩
  · intro unit hmem
    rw [hunits] at hmem
    obtain ⟨c, hc, rfl⟩ := List.mem_map.mp hmem
    exact (hunit c hc).1
  · intro unit hmem
    rw [hunits] at hmem
    obtain ⟨c, hc, rfl⟩ := List.mem_map.mp hmem
    exact (hunit c hc).2
  · rw [hunits, List.length_map, hchars, List.length_cons]
    omega
  · rw [hunits, List.length_map, String.length_toList]

theorem isNameText {name : String} (h : isScheduleName name = true) :
    IsNameText (codeUnits name) ∧ (codeUnits name).length = name.length := by
  have hletter {c : Char} (hc : isScheduleName.isLetter c = true) : isLetterUnit c.toNat := by
    unfold isScheduleName.isLetter at hc
    simp only [Bool.or_eq_true, Bool.and_eq_true, decide_eq_true_eq, Char.le_def, UInt32.le_iff_toNat_le] at hc
    exact hc
  unfold isScheduleName at h
  split at h
  · cases h
  · rename_i first rest hchars
    simp only [Bool.and_eq_true, decide_eq_true_eq, List.all_eq_true] at h
    obtain ⟨⟨hfirst, hlength⟩, hrest⟩ := h
    refine isNameText_of_chars hchars (hletter hfirst) (fun c hc => ?_) hlength
    rw [hchars] at hc
    rcases List.mem_cons.mp hc with rfl | hc
    · have hthis := hletter hfirst
      unfold isLetterUnit at hthis
      exact ⟨isSafe_iff.mpr (by omega), by omega⟩
    · have hthis := hrest c hc
      simp only [Bool.or_eq_true, Bool.and_eq_true, decide_eq_true_eq, Char.le_def, UInt32.le_iff_toNat_le] at hthis
      rcases hthis with (((hthis | hthis) | rfl) | rfl) | rfl
      · have hthis := hletter hthis
        unfold isLetterUnit at hthis
        exact ⟨isSafe_iff.mpr (by omega), by omega⟩
      · have hdigit : isDigitUnit c.toNat := hthis
        unfold isDigitUnit at hdigit
        exact ⟨isSafe_iff.mpr (by omega), by omega⟩
      · decide
      · decide
      · decide

/-- The triggers of the automation service look like names, too. -/
theorem isNameText_of_trigger {trigger : String} (h : isTriggerName trigger = true) :
    IsNameText (codeUnits trigger) := by
  have hlower {c : Char} (hc : isTriggerName.isLower c = true) : 97 ≤ c.toNat ∧ c.toNat ≤ 122 := by
    unfold isTriggerName.isLower at hc
    simp only [Bool.and_eq_true, decide_eq_true_eq, Char.le_def, UInt32.le_iff_toNat_le] at hc
    exact hc
  unfold isTriggerName at h
  rw [Bool.and_eq_true, decide_eq_true_eq] at h
  obtain ⟨⟨-, hlength⟩, h⟩ := h
  split at h
  · cases h
  · rename_i first rest hchars
    rw [← String.length_toList, hchars, List.length_cons] at hlength
    simp only [Bool.and_eq_true, List.all_eq_true] at h
    obtain ⟨hfirst, hrest⟩ := h
    refine (isNameText_of_chars hchars (.inl (hlower hfirst)) (fun c hc => ?_) (by omega)).1
    rw [hchars] at hc
    rcases List.mem_cons.mp hc with rfl | hc
    · have hthis := hlower hfirst
      exact ⟨isSafe_iff.mpr (.inl hthis), by omega⟩
    · have hthis := hrest c hc
      simp only [Bool.or_eq_true, Bool.and_eq_true, decide_eq_true_eq, Char.le_def, UInt32.le_iff_toNat_le] at hthis
      rcases hthis with (((hthis | hthis) | rfl) | rfl) | rfl
      · have hthis := hlower hthis
        exact ⟨isSafe_iff.mpr (.inl hthis), by omega⟩
      · have hdigit : isDigitUnit c.toNat := hthis
        unfold isDigitUnit at hdigit
        exact ⟨isSafe_iff.mpr (by omega), by omega⟩
      · decide
      · decide
      · decide

end Keys

/-! ## Schedules of one scheduler -/

/-- The instances of the scheduler, by what is registered with them. -/
inductive Built : Instance → Prop
  | created (id : Id) (enabled : Bool) : Built { id, enabled }
  | registered {scheduler scheduler' : Instance} (h : Built scheduler) (definition : ScheduleDefinition)
      (now : Timestamp) (hregister : scheduler.register definition now = .ok scheduler') : Built scheduler'
  | started {scheduler : Instance} (h : Built scheduler) (now : Timestamp) : Built (scheduler.start now)
  | noted {scheduler : Instance} (h : Built scheduler) (name : String) (slot : Timestamp) :
      Built (scheduler.setLast name slot)
  | closed {scheduler : Instance} (h : Built scheduler) : Built scheduler.close

/-- What registration checks of a schedule. -/
structure Registrable (schedule : RegisteredSchedule) : Prop where
  name : isScheduleName schedule.name = true
  trigger : ∃ given, schedule.trigger = trim given
  triggered : schedule.trigger ≠ ""

section Schedules

theorem definitions_align (scheduler : Instance) (now : Timestamp) (schedule : RegisteredSchedule) :
    (scheduler.align now schedule).definitions = scheduler.definitions := by
  unfold Instance.align
  split <;> rfl

theorem definitions_start (scheduler : Instance) (now : Timestamp) :
    (scheduler.start now).definitions = scheduler.definitions := by
  unfold Instance.start
  split
  · rfl
  · have hfold (schedules : List RegisteredSchedule) (before : Instance) :
        (schedules.foldl (fun aligned schedule => aligned.align now schedule) before).definitions =
          before.definitions := by
      induction schedules generalizing before with
      | nil => rfl
      | cons schedule schedules ih => exact (ih _).trans (definitions_align before now schedule)
    exact hfold scheduler.definitions scheduler

theorem definitions_add (scheduler : Instance) (schedule : RegisteredSchedule) (now : Timestamp) :
    (scheduler.add schedule now).definitions = scheduler.definitions ++ [schedule] := by
  unfold Instance.add
  dsimp only
  split
  · exact definitions_align _ _ _
  · rfl

theorem register_definitions {scheduler scheduler' : Instance} {definition : ScheduleDefinition} {now : Timestamp}
    (h : scheduler.register definition now = .ok scheduler') : ∃ schedule, Registrable schedule ∧
      (∀ other ∈ scheduler.definitions, other.name ≠ schedule.name) ∧
      scheduler'.definitions = scheduler.definitions ++ [schedule] := by
  unfold Instance.register at h
  dsimp only at h
  split at h
  · cases h
  · rename_i hname
    split at h
    · cases h
    · rename_i hnew
      split at h
      · cases h
      · rename_i clock hclock
        split at h
        · cases h
        · rename_i htrigger
          cases h
          refine ⟨_, ?_, ?_, definitions_add scheduler _ now⟩
          · have hchecked : isScheduleName (trim definition.name) = true := by simpa using hname
            exact ⟨hchecked, ⟨_, rfl⟩, htrigger⟩
          · intro other hother hsame
            exact hnew (List.any_eq_true.mpr ⟨other, hother, decide_eq_true hsame⟩)

/-- The schedules of an instance are registrable, and their names tell them apart. -/
theorem definitions_of_built {scheduler : Instance} (h : Built scheduler) :
    (∀ schedule ∈ scheduler.definitions, Registrable schedule) ∧
      ∀ schedule ∈ scheduler.definitions, ∀ other ∈ scheduler.definitions, schedule.name = other.name →
        schedule = other := by
  induction h with
  | created => exact ⟨List.forall_mem_nil _, List.forall_mem_nil _⟩
  | @registered before after _ definition now hregister ih =>
      obtain ⟨schedule, hregistrable, hnew, hdefinitions⟩ := register_definitions hregister
      rw [hdefinitions]
      constructor
      · intro other hother
        rcases List.mem_append.mp hother with hother | hother
        · exact ih.1 other hother
        · cases List.mem_singleton.mp hother
          exact hregistrable
      · intro first hfirst second hsecond hname
        rcases List.mem_append.mp hfirst with hfirst | hfirst <;>
          rcases List.mem_append.mp hsecond with hsecond | hsecond
        · exact ih.2 first hfirst second hsecond hname
        · cases List.mem_singleton.mp hsecond
          exact absurd hname (hnew first hfirst)
        · cases List.mem_singleton.mp hfirst
          exact absurd hname.symm (hnew second hsecond)
        · rw [List.mem_singleton.mp hfirst, List.mem_singleton.mp hsecond]
  | started _ now ih =>
      rw [definitions_start]
      exact ih
  | noted _ name slot ih => exact ih
  | closed _ ih => exact ih

end Schedules

/-! ## What tells occurrences apart -/

/-- The first units of `trigger:name:time` that make up an id, blanks at the end left off. -/
def keptText (schedule : RegisteredSchedule) (slot : Timestamp) : Text :=
  trimText ((codeUnits schedule.trigger ++ ':'.toNat :: ((slotKey schedule slot).map safeUnit).take 80).take 128)

/-- The slots of one schedule are told apart by the part of the time that the name leaves room for; two
schedules of one trigger by the part of the names that the trigger leaves room for; two triggers always, unless one
has more than 126 code units, and then by all that is kept. -/
def ToldApart (schedule : RegisteredSchedule) (slot : Timestamp) (other : RegisteredSchedule) (slot' : Timestamp) :
    Prop :=
  let room := keptOfKey (codeUnits schedule.trigger)
  if schedule.name = other.name then
    (toISOString slot).take (room - (schedule.name.length + 1)) ≠
      (toISOString slot').take (room - (schedule.name.length + 1))
  else if schedule.trigger = other.trigger then
    ¬ (room ≤ schedule.name.length ∧ room ≤ other.name.length ∧
      (codeUnits schedule.name).take room = (codeUnits other.name).take room)
  else
    (codeUnits schedule.trigger).length ≤ 126 ∧ (codeUnits other.trigger).length ≤ 126 ∨
      keptText schedule slot ≠ keptText other slot'

section Occurrences

variable {schedule other : RegisteredSchedule} {slot slot' : Timestamp}

theorem Registrable.head (h : Registrable schedule) :
    ∃ first rest, codeUnits schedule.trigger = first :: rest ∧ isSpaceUnit first = false := by
  obtain ⟨given, hgiven⟩ := h.trigger
  have hne := h.triggered
  rw [hgiven] at hne ⊢
  exact codeUnits_trim hne

theorem map_slotKey (h : IsNameText (codeUnits schedule.name)) : (slotKey schedule slot).map safeUnit =
    codeUnits schedule.name ++ 58 :: (toISOString slot).map safeUnit := by
  have hcolon : safeUnit ':'.toNat = 58 := by decide
  unfold slotKey
  rw [List.map_append, map_safeUnit h.safe, List.map_cons, hcolon]

/-- Behind one beginning, what is kept is the same if and only if the part of the rest is. -/
theorem take_append_iff (before text text' : Text) (n : ℕ) :
    (before ++ text).take n = (before ++ text').take n ↔
      text.take (n - before.length) = text'.take (n - before.length) := by
  rw [List.take_append, List.take_append, List.append_cancel_left_eq]

/-- Of two names without a colon, each with a colon behind it, no more is the same than what both have. -/
theorem take_names_iff {name name' text text' : Text} (hname : ∀ unit ∈ name, unit ≠ 58)
    (hname' : ∀ unit ∈ name', unit ≠ 58) (hne : name ≠ name') (n : ℕ) :
    (name ++ 58 :: text).take n = (name' ++ 58 :: text').take n ↔
      n ≤ name.length ∧ n ≤ name'.length ∧ name.take n = name'.take n := by
  induction n generalizing name name' with
  | zero => exact iff_of_true rfl ⟨Nat.zero_le _, Nat.zero_le _, rfl⟩
  | succ n ih =>
      cases name with
      | nil =>
          cases name' with
          | nil => exact absurd rfl hne
          | cons unit' rest' =>
              refine iff_of_false (fun h => ?_) fun h => absurd h.1 (Nat.not_succ_le_zero n)
              rw [List.nil_append, List.cons_append, List.take_succ_cons, List.take_succ_cons, List.cons.injEq] at h
              exact hname' unit' List.mem_cons_self h.1.symm
      | cons unit rest =>
          cases name' with
          | nil =>
              refine iff_of_false (fun h => ?_) fun h => absurd h.2.1 (Nat.not_succ_le_zero n)
              rw [List.nil_append, List.cons_append, List.take_succ_cons, List.take_succ_cons, List.cons.injEq] at h
              exact hname unit List.mem_cons_self h.1
          | cons unit' rest' =>
              rw [List.cons_append, List.cons_append, List.take_succ_cons, List.take_succ_cons, List.take_succ_cons,
                List.take_succ_cons, List.cons.injEq, List.cons.injEq, List.length_cons, List.length_cons,
                Nat.succ_le_succ_iff, Nat.succ_le_succ_iff]
              by_cases hunit : unit = unit'
              · subst hunit
                have hrest : rest ≠ rest' := fun h => hne (congrArg _ h)
                rw [and_iff_right rfl, and_iff_right rfl]
                exact ih (fun u hu => hname u (List.mem_cons_of_mem _ hu))
                  (fun u hu => hname' u (List.mem_cons_of_mem _ hu)) hrest
              · exact iff_of_false (fun h => hunit h.1) fun h => hunit h.2.2.1

/-- A trigger and its key are no trigger and its key with more of the first in the trigger: behind the colon of the
second there is a letter, and in a key no letter stands behind a colon. -/
theorem triggers_apart {type type' key key' : Text} {n n' : ℕ} (hchain : key.IsChain ColonThenNoLetter)
    (hletter : ∃ first rest, key' = first :: rest ∧ isLetterUnit first) (hroom : n' ≠ 0) {more : Text}
    (hmore : more ≠ [])
    (htype : type' = type ++ more) : type ++ 58 :: key.take n ≠ type' ++ 58 :: key'.take n' := by
  intro h
  obtain ⟨first, rest, rfl, hfirst⟩ := hletter
  obtain ⟨n', rfl⟩ := Nat.exists_eq_succ_of_ne_zero hroom
  rw [htype, List.append_assoc, List.append_cancel_left_eq] at h
  cases more with
  | nil => exact hmore rfl
  | cons unit more =>
      rw [List.cons_append, List.cons.injEq, List.take_succ_cons] at h
      have hkept := hchain.take n
      rw [h.2, List.isChain_append_cons_cons] at hkept
      exact hkept.2.1 rfl hfirst

/-- Different triggers of at most 126 code units give different ids. -/
theorem tickId_triggers (hschedule : Registrable schedule) (hother : Registrable other)
    (htrigger : schedule.trigger ≠ other.trigger) (hshort : (codeUnits schedule.trigger).length ≤ 126)
    (hshort' : (codeUnits other.trigger).length ≤ 126) (uuid uuid' : Text) :
    tickId schedule slot uuid ≠ tickId other slot' uuid' := by
  obtain ⟨hname, -⟩ := isNameText hschedule.name
  obtain ⟨hname', -⟩ := isNameText hother.name
  obtain ⟨first, rest, hhead, hfirst⟩ := hschedule.head
  obtain ⟨first', rest', hhead', hfirst'⟩ := hother.head
  have hunits : codeUnits schedule.trigger ≠ codeUnits other.trigger := fun h => htrigger (codeUnits_injective h)
  have hkey {one : RegisteredSchedule} (time : Timestamp) (h : IsNameText (codeUnits one.name)) :
      ((slotKey one time).map safeUnit).IsChain ColonThenNoLetter ∧
        ∃ first rest, (slotKey one time).map safeUnit = first :: rest ∧ isLetterUnit first := by
    rw [map_slotKey h]
    obtain ⟨letter, tail, htext, hletter⟩ := h.letter
    refine ⟨chain_append h.colonless ?_, letter, _, by rw [htext]; rfl, hletter⟩
    obtain ⟨begin_, end_, htime, hbegin, -, hchain⟩ := toISOString_shape time
    rw [htime, List.map_cons] at hchain ⊢
    refine List.isChain_cons_cons.mpr ⟨fun _ hbad => ?_, hchain⟩
    have hnot : ¬ isLetterUnit (safeUnit begin_) := by
      rcases hbegin with hdigit | rfl
      · rw [safeUnit_of_safe (isSafe_of_digit hdigit)]
        unfold isDigitUnit at hdigit
        unfold isLetterUnit
        omega
      · unfold isLetterUnit
        decide
    exact hnot hbad
  obtain ⟨hchain, hletter⟩ := hkey slot hname
  obtain ⟨hchain', hletter'⟩ := hkey slot' hname'
  unfold tickId
  rw [hhead] at hshort hunits ⊢
  rw [hhead'] at hshort' hunits ⊢
  rw [emittedId_short hfirst (by omega), emittedId_short hfirst' (by omega)]
  have hroom : keptOfKey (first :: rest) ≠ 0 := by
    unfold keptOfKey
    omega
  have hroom' : keptOfKey (first' :: rest') ≠ 0 := by
    unfold keptOfKey
    omega
  intro h
  rcases List.append_eq_append_iff.mp h with ⟨more, hmore, -⟩ | ⟨more, hmore, -⟩
  · refine triggers_apart hchain hletter' hroom' (fun hnil => hunits ?_) hmore h
    rw [hmore, hnil, List.append_nil]
  · refine triggers_apart hchain' hletter hroom (fun hnil => hunits ?_) hmore h.symm
    rw [hmore, hnil, List.append_nil]

/-- The ids of two slots differ if and only if the slots are told apart. -/
theorem tickId_ne_iff (hschedule : Registrable schedule) (hother : Registrable other)
    (hsame : schedule.name = other.name → schedule = other) (uuid uuid' : Text) :
    tickId schedule slot uuid ≠ tickId other slot' uuid' ↔ ToldApart schedule slot other slot' := by
  obtain ⟨hname, hlength⟩ := isNameText hschedule.name
  obtain ⟨hname', hlength'⟩ := isNameText hother.name
  unfold ToldApart
  dsimp only
  split
  · rename_i hnames
    cases hsame hnames
    obtain ⟨first, rest, hhead, hfirst⟩ := hschedule.head
    unfold tickId
    rw [hhead, ne_eq, emittedId_eq_iff hfirst, map_slotKey hname, map_slotKey hname, List.append_cons,
      List.append_cons _ _ ((toISOString slot').map safeUnit), take_append_iff, List.length_append, hlength,
      List.length_singleton, take_map_time_iff]
  · rename_i hnames
    have hunits : codeUnits schedule.name ≠ codeUnits other.name := fun h => hnames (codeUnits_injective h)
    split
    · rename_i htrigger
      obtain ⟨first, rest, hhead, hfirst⟩ := hschedule.head
      unfold tickId
      rw [← htrigger, hhead, ne_eq, emittedId_eq_iff hfirst, map_slotKey hname, map_slotKey hname',
        take_names_iff hname.colonless hname'.colonless hunits, hlength, hlength']
    · rename_i htrigger
      have hkept {one : RegisteredSchedule} {time : Timestamp} (h : Registrable one) (uuid : Text) :
          tickId one time uuid = keptText one time := by
        obtain ⟨first, rest, hhead, hfirst⟩ := h.head
        unfold tickId keptText eventIdFor
        dsimp only
        rw [hhead, List.cons_append, List.take_succ_cons, emittedId_eq hfirst]
      constructor
      · intro hne
        rw [hkept hschedule, hkept hother] at hne
        exact .inr hne
      · rintro (⟨hshort, hshort'⟩ | hne)
        · exact tickId_triggers hschedule hother htrigger hshort hshort' uuid uuid'
        · rw [hkept hschedule, hkept hother]
          exact hne

end Occurrences

/-! ## Events of the automation service -/

/-- What tells two payloads apart: the first 48 code units of their texts, with those that are not safe replaced. -/
def payloadMark (numberText : Num → Text) (payload : Payload) : Text := (payloadKey numberText payload).map safeUnit

section Payloads

variable {numberText : Num → Text} {trigger : String}

theorem trigger_head (h : isTriggerName trigger = true) :
    ∃ first rest, codeUnits trigger = first :: rest ∧ isSpaceUnit first = false ∧ 48 ≤ keptOfKey (first :: rest) := by
  have hname := isNameText_of_trigger h
  obtain ⟨first, rest, hunits, -⟩ := hname.letter
  have hsafe := hname.safe
  have hbounded := hname.bounded
  rw [hunits] at hsafe hbounded
  refine ⟨first, rest, hunits, not_space_of_safe (hsafe first List.mem_cons_self), ?_⟩
  unfold keptOfKey
  omega

/-- The ids of two events of one trigger differ if and only if the payloads are told apart. -/
theorem emitEventId_ne_iff (h : isTriggerName trigger = true) (payload payload' : Payload) (uuid uuid' : Text) :
    emitEventId numberText trigger payload uuid ≠ emitEventId numberText trigger payload' uuid' ↔
      payloadMark numberText payload ≠ payloadMark numberText payload' := by
  obtain ⟨first, rest, hunits, hfirst, hroom⟩ := trigger_head h
  have hwhole (payload : Payload) : ((payloadKey numberText payload).map safeUnit).take (keptOfKey (first :: rest)) =
      payloadMark numberText payload := by
    refine List.take_of_length_le ?_
    unfold payloadKey
    rw [List.length_map, List.length_take]
    omega
  unfold emitEventId
  rw [hunits, ne_eq, emittedId_eq_iff hfirst, hwhole, hwhole]

/-- The key of a slot begins with a letter and that of a payload with a dash. -/
theorem tickId_ne_emitEventId {schedule : RegisteredSchedule} (hschedule : Registrable schedule)
    (htrigger : schedule.trigger = trigger) (h : isTriggerName trigger = true) (slot : Timestamp) (payload : Payload)
    (uuid uuid' : Text) : tickId schedule slot uuid ≠ emitEventId numberText trigger payload uuid' := by
  obtain ⟨first, rest, hunits, hfirst, hroom⟩ := trigger_head h
  obtain ⟨room, hroom⟩ : ∃ room, keptOfKey (first :: rest) = room + 1 := ⟨keptOfKey (first :: rest) - 1, by omega⟩
  obtain ⟨hname, -⟩ := isNameText hschedule.name
  obtain ⟨letter, tail, hletters, hletter⟩ := hname.letter
  unfold tickId emitEventId
  rw [htrigger, hunits, ne_eq, emittedId_eq_iff hfirst, map_slotKey hname, hletters, hroom, List.cons_append,
    List.take_succ_cons]
  intro hsame
  have hbrace : payloadKey numberText payload =
      0x7B :: (commaSeparated (stringify.stringifyFields numberText payload) ++ [0x7D]).take 47 := rfl
  have hdash : safeUnit 0x7B = 45 := by decide
  rw [hbrace, List.map_cons, List.take_succ_cons, List.cons.injEq, hdash] at hsame
  unfold isLetterUnit at hletter
  omega

end Payloads

/-! ## Duplicates -/

/-- What an event is emitted for. -/
inductive Occurrence where
  | due (schedule : RegisteredSchedule) (slot : Timestamp) (payload : Payload)
  | reported (trigger : String) (payload : Payload)

def Occurrence.trigger : Occurrence → String
  | .due schedule _ _ => schedule.trigger
  | .reported trigger _ => trigger

def Occurrence.payload : Occurrence → Payload
  | .due _ _ payload => payload
  | .reported _ payload => payload

def Occurrence.id (numberText : Num → Text) (uuid : Text) : Occurrence → Text
  | .due schedule slot _ => tickId schedule slot uuid
  | .reported trigger payload => emitEventId numberText trigger payload uuid

/-- The slots are those of schedules of the scheduler. -/
def Occurrence.Of (scheduler : Instance) : Occurrence → Prop
  | .due schedule _ _ => schedule ∈ scheduler.definitions
  | .reported _ _ => True

/-- What tells two occurrences with one trigger apart. -/
def Occurrence.ToldApart (numberText : Num → Text) : Occurrence → Occurrence → Prop
  | .due schedule slot _, .due other slot' _ => Events.ToldApart schedule slot other slot'
  | .reported _ payload, .reported _ payload' => payloadMark numberText payload ≠ payloadMark numberText payload'
  | _, _ => True

/-- An event: its occurrence, what `randomUUID` would answer, and the time it is handled at. -/
structure Emission where
  occurrence : Occurrence
  uuid : Text
  now : Timestamp

def Emission.event (numberText : Num → Text) (emission : Emission) : DomainEvent :=
  { id := String.ofList ((emission.occurrence.id numberText emission.uuid).map Char.ofNat)
    type := emission.occurrence.trigger
    payload := emission.occurrence.payload }

/-- The store once the rule was created its executions for the events. -/
def afterEvents (numberText : Num → Text) (ruleId : Id) (store : AutomationStore) (emissions : List Emission) :
    AutomationStore :=
  emissions.foldl (fun store emission =>
    (store.createExecution ruleId (emission.event numberText) jobAttempts emission.now).1) store

section Duplicates

variable {numberText : Num → Text} {trigger : String} {scheduler : Instance} {ruleId : Id}

theorem duplicate_iff (store : AutomationStore) (ruleId : Id) (event : DomainEvent) (maxAttempts : ℕ)
    (now : Timestamp) :
    (store.createExecution ruleId event maxAttempts now).2 = none ↔ (store.executionFor ruleId event.id).isSome := by
  unfold AutomationStore.createExecution
  cases store.executionFor ruleId event.id with
  | some execution => exact iff_of_true rfl rfl
  | none => exact iff_of_false (Option.some_ne_none _) Bool.false_ne_true

theorem executionFor_createExecution (store : AutomationStore) (ruleId : Id) (event : DomainEvent) (maxAttempts : ℕ)
    (now : Timestamp) (id : String) :
    ((store.createExecution ruleId event maxAttempts now).1.executionFor ruleId id).isSome ↔
      (store.executionFor ruleId id).isSome ∨ event.id = id := by
  unfold AutomationStore.createExecution
  cases hfound : store.executionFor ruleId event.id with
  | some execution =>
      refine ⟨.inl, fun h => h.elim (fun h => h) ?_⟩
      rintro rfl
      rw [hfound]
      rfl
  | none =>
      dsimp only
      unfold AutomationStore.executionFor
      rw [List.find?_append, Option.isSome_or, Bool.or_eq_true]
      refine or_congr_right ?_
      rw [List.find?_singleton]
      by_cases hid : event.id = id
      · rw [if_pos (decide_eq_true ⟨rfl, hid⟩)]
        exact iff_of_true rfl hid
      · rw [if_neg fun h => hid (of_decide_eq_true h).2]
        exact iff_of_false Bool.false_ne_true hid

theorem executionFor_afterEvents (emissions : List Emission) (store : AutomationStore) (id : String) :
    ((afterEvents numberText ruleId store emissions).executionFor ruleId id).isSome ↔
      (store.executionFor ruleId id).isSome ∨ ∃ before ∈ emissions, (before.event numberText).id = id := by
  induction emissions generalizing store with
  | nil =>
      refine ⟨.inl, fun h => h.elim (fun h => h) ?_⟩
      rintro ⟨_, hmem, -⟩
      cases hmem
  | cons emission emissions ih =>
      unfold afterEvents at ih ⊢
      rw [List.foldl_cons, ih, executionFor_createExecution, or_assoc]
      refine or_congr_right ?_
      rw [List.exists_mem_cons_iff]

theorem Occurrence.safe_id {occurrence : Occurrence} (h : isTriggerName occurrence.trigger = true) (uuid : Text) :
    ∀ unit ∈ occurrence.id numberText uuid, isSafe unit = true := by
  obtain ⟨first, rest, hunits, hfirst, hroom⟩ := trigger_head h
  have hsafe := (isNameText_of_trigger h).safe
  rw [hunits] at hsafe
  have hshort : (first :: rest).length ≤ 127 := by
    unfold keptOfKey at hroom
    omega
  have hkey (key : Text) : ∀ unit ∈ emittedId (eventIdFor (first :: rest) key) uuid, isSafe unit = true := by
    rw [emittedId_short hfirst hshort]
    intro unit hunit
    rcases List.mem_append.mp hunit with hunit | hunit
    · exact hsafe unit hunit
    · rcases List.mem_cons.mp hunit with rfl | hunit
      · decide
      · obtain ⟨before, -, rfl⟩ := List.mem_map.mp (List.mem_of_mem_take hunit)
        exact isSafe_safeUnit before
  cases occurrence with
  | due schedule slot payload =>
      change codeUnits schedule.trigger = _ at hunits
      change ∀ unit ∈ tickId schedule slot uuid, isSafe unit = true
      unfold tickId
      rw [hunits]
      exact hkey _
  | reported trigger payload =>
      change codeUnits trigger = _ at hunits
      change ∀ unit ∈ emitEventId numberText trigger payload uuid, isSafe unit = true
      unfold emitEventId
      rw [hunits]
      exact hkey _

/-- Two occurrences with the trigger of a rule have different ids if and only if they are told apart. -/
theorem Occurrence.id_ne_iff (hbuilt : Built scheduler) (h : isTriggerName trigger = true)
    {occurrence other : Occurrence}
    (hof : occurrence.Of scheduler) (hof' : other.Of scheduler) (htrigger : occurrence.trigger = trigger)
    (htrigger' : other.trigger = trigger) (uuid uuid' : Text) :
    occurrence.id numberText uuid ≠ other.id numberText uuid' ↔ occurrence.ToldApart numberText other := by
  obtain ⟨hregistrable, hnames⟩ := definitions_of_built hbuilt
  cases occurrence with
  | due schedule slot payload =>
      cases other with
      | due schedule' slot' payload' =>
          exact tickId_ne_iff (hregistrable schedule hof) (hregistrable schedule' hof')
            (hnames schedule hof schedule' hof') uuid uuid'
      | reported trigger' payload' =>
          cases htrigger'
          exact iff_of_true
            (tickId_ne_emitEventId (hregistrable schedule hof) htrigger h slot payload' uuid uuid') trivial
  | reported trigger' payload =>
      cases htrigger
      cases other with
      | due schedule' slot' payload' =>
          exact iff_of_true
            (tickId_ne_emitEventId (hregistrable schedule' hof') htrigger' h slot' payload uuid' uuid).symm trivial
      | reported trigger'' payload' =>
          cases htrigger'
          exact emitEventId_ne_iff h payload payload' uuid uuid'

theorem ofList_map_inj {text text' : Text} (h : ∀ unit ∈ text, isSafe unit = true)
    (h' : ∀ unit ∈ text', isSafe unit = true) :
    String.ofList (text.map Char.ofNat) = String.ofList (text'.map Char.ofNat) ↔ text = text' := by
  have hback {text : Text} (h : ∀ unit ∈ text, isSafe unit = true) :
      (text.map Char.ofNat).map Char.toNat = text := by
    rw [List.map_map]
    refine (List.map_congr_left fun unit hunit => ?_).trans (List.map_id text)
    have hsmall := isSafe_iff.mp (h unit hunit)
    have hvalid : unit.isValidChar := .inl (by omega)
    rw [Function.comp_apply, Char.ofNat, dif_pos hvalid]
    rfl
  constructor
  · intro hsame
    have hchars := congrArg (fun s : String => s.toList.map Char.toNat) hsame
    rwa [String.toList_ofList, String.toList_ofList, hback h, hback h'] at hchars
  · rintro rfl
    rfl

/-- The ids of slots, and of reported events, differ if and only if the slots, or the payloads, are told apart; and
the event of an occurrence with a rule's trigger is a duplicate if and only if it comes with the id of an execution
the rule had, or an occurrence before it is not told apart from it. -/
theorem ids_distinct_iff {scheduler : Instance} (h : Built scheduler) (numberText : Num → Text) :
    (∀ schedule ∈ scheduler.definitions, ∀ other ∈ scheduler.definitions, ∀ slot slot' uuid uuid',
      tickId schedule slot uuid ≠ tickId other slot' uuid' ↔ ToldApart schedule slot other slot') ∧
    (∀ trigger, isTriggerName trigger = true → ∀ payload payload' uuid uuid',
      emitEventId numberText trigger payload uuid ≠ emitEventId numberText trigger payload' uuid' ↔
        payloadMark numberText payload ≠ payloadMark numberText payload') ∧
    ∀ trigger, isTriggerName trigger = true → ∀ (ruleId : Id) (store : AutomationStore) (earlier : List Emission)
        (emission : Emission),
      (∀ one ∈ emission :: earlier, one.occurrence.Of scheduler ∧ one.occurrence.trigger = trigger) →
      (((afterEvents numberText ruleId store earlier).createExecution ruleId (emission.event numberText) jobAttempts
          emission.now).2 = none ↔
        (store.executionFor ruleId (emission.event numberText).id).isSome ∨
          ∃ before ∈ earlier, ¬ before.occurrence.ToldApart numberText emission.occurrence) := by
  obtain ⟨hregistrable, hnames⟩ := definitions_of_built h
  refine ⟨?_, ?_, ?_⟩
  · intro schedule hschedule other hother slot slot' uuid uuid'
    exact tickId_ne_iff (hregistrable schedule hschedule) (hregistrable other hother)
      (hnames schedule hschedule other hother) uuid uuid'
  · intro trigger htrigger payload payload' uuid uuid'
    exact emitEventId_ne_iff htrigger payload payload' uuid uuid'
  · intro trigger htrigger ruleId store earlier emission hall
    rw [duplicate_iff, executionFor_afterEvents]
    refine or_congr_right (exists_congr fun before => and_congr_right fun hbefore => ?_)
    obtain ⟨hof, hof_trigger⟩ := hall before (List.mem_cons_of_mem _ hbefore)
    obtain ⟨hof', hof_trigger'⟩ := hall emission List.mem_cons_self
    rw [← Occurrence.id_ne_iff h htrigger hof hof' hof_trigger hof_trigger' before.uuid emission.uuid, not_not]
    rw [← hof_trigger] at htrigger
    have htrigger' : isTriggerName emission.occurrence.trigger = true := by
      rw [hof_trigger', ← hof_trigger]
      exact htrigger
    exact ofList_map_inj (Occurrence.safe_id htrigger before.uuid) (Occurrence.safe_id htrigger' emission.uuid)

end Duplicates

/-! ## Ids of given occurrences -/

/-- A schedule of every minute, whose name has the 64 characters that a name may have. -/
def minuteReport : ScheduleDefinition :=
  { name := "report-of-the-pipeline-and-of-all-deals-that-are-open-per-minute"
    intervalMs := some 60000
    trigger := some "report.due" }

def minuteSchedule : RegisteredSchedule :=
  { name := minuteReport.name
    clock := .interval 60000
    trigger := "report.due"
    buildsPayload := false }

def minuteScheduler : Instance := { id := 0, enabled := true, definitions := [minuteSchedule] }

def discountAsked (percent : String) : Payload :=
  [("text", .str ("The customer asks for a discount of up to " ++ percent))]

theorem minuteScheduler_built : Built minuteScheduler := by
  refine .registered (.created 0 true) minuteReport 0 ?_
  have hname : trim minuteReport.name = minuteReport.name := by decide
  have htrigger : trim (minuteReport.trigger.getD defaultTrigger) = "report.due" := by decide
  have hvalid : isScheduleName minuteReport.name = true := by decide
  unfold Instance.register
  dsimp only
  rw [hname, htrigger, hvalid]
  rfl

/-- The reports of two minutes have one id, and so have two questions that differ behind the cut; the second of each
is a duplicate. -/
theorem nextMinute_duplicate :
    Built minuteScheduler ∧ minuteSchedule ∈ minuteScheduler.definitions ∧
      minuteSchedule.resolveSlot 0 = some 0 ∧ minuteSchedule.resolveSlot 60000 = some 60000 ∧
      tickId minuteSchedule 0 [] = tickId minuteSchedule 60000 [] ∧
      discountAsked "5 %" ≠ discountAsked "9 %" ∧
      emitEventId (fun _ => []) "deal.asked" (discountAsked "5 %") [] =
        emitEventId (fun _ => []) "deal.asked" (discountAsked "9 %") [] ∧
      ∃ first second : Emission,
        first.occurrence = .due minuteSchedule 0 [] ∧ second.occurrence = .due minuteSchedule 60000 [] ∧
        ((afterEvents (fun _ => []) 0 {} [first]).createExecution 0 (second.event fun _ => []) jobAttempts 60000).2 =
          none := by
  have hids : tickId minuteSchedule 0 [] = tickId minuteSchedule 60000 [] := by decide
  have htexts : emitEventId (fun _ => []) "deal.asked" (discountAsked "5 %") [] =
      emitEventId (fun _ => []) "deal.asked" (discountAsked "9 %") [] := by decide
  refine ⟨minuteScheduler_built, List.mem_singleton.mpr rfl, rfl, rfl, hids, ?_, htexts,
    ⟨.due minuteSchedule 0 [], [], 0⟩, ⟨.due minuteSchedule 60000 [], [], 60000⟩, rfl, rfl, ?_⟩
  · intro h
    have hpercent : "The customer asks for a discount of up to " ++ "5 %" =
        "The customer asks for a discount of up to " ++ "9 %" := by
      injection h with hfield
      injection hfield with _ hvalue
      injection hvalue
    exact absurd hpercent (by decide)
  · rw [duplicate_iff, executionFor_afterEvents]
    refine .inr ⟨_, List.mem_singleton.mpr rfl, ?_⟩
    exact congrArg (fun id : Text => String.ofList (id.map Char.ofNat)) hids

/-- The reports of two hours, and two questions that differ before the cut, have different ids; the second report is
no duplicate. -/
theorem nextHour_new :
    tickId minuteSchedule 0 [] ≠ tickId minuteSchedule 3600000 [] ∧
      emitEventId (fun _ => []) "deal.asked" [("text", .str "5 %")] [] ≠
        emitEventId (fun _ => []) "deal.asked" [("text", .str "9 %")] [] ∧
      ((afterEvents (fun _ => []) 0 {} [⟨.due minuteSchedule 0 [], [], 0⟩]).createExecution 0
        ((⟨.due minuteSchedule 3600000 [], [], 3600000⟩ : Emission).event fun _ => []) jobAttempts
          3600000).2 ≠ none := by
  have hmem : minuteSchedule ∈ minuteScheduler.definitions := List.mem_singleton.mpr rfl
  obtain ⟨hslots, hpayloads, hduplicates⟩ := ids_distinct_iff minuteScheduler_built fun _ => []
  have hapart : ToldApart minuteSchedule 0 minuteSchedule 3600000 := by
    unfold ToldApart
    dsimp only
    rw [if_pos rfl]
    decide
  refine ⟨(hslots minuteSchedule hmem minuteSchedule hmem 0 3600000 [] []).mpr hapart, ?_, ?_⟩
  · rw [hpayloads "deal.asked" (by decide)]
    decide
  · have htold := hduplicates "report.due" (by decide) 0 {} [⟨.due minuteSchedule 0 [], [], 0⟩]
      ⟨.due minuteSchedule 3600000 [], [], 3600000⟩ (by
        intro one hone
        rcases List.mem_cons.mp hone with rfl | hone
        · exact ⟨hmem, rfl⟩
        · cases List.mem_singleton.mp hone
          exact ⟨hmem, rfl⟩)
    rw [ne_eq, htold]
    rintro (hnone | ⟨before, hbefore, hnot⟩)
    · cases hnone
    · cases List.mem_singleton.mp hbefore
      exact hnot hapart

end DealFlow360.Events
